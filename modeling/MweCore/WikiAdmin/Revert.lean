import MweCore.Lib.Run
import MweCore.WikiAdmin.PushLaws

/-!
# Reverting a write

`op_revert` puts the pages of an op-log row back as its pre-image has them, unless a newer write op
touched one of them.  Newer means stamped later, and touching a page means naming it in the same
spelling.

A `Book` is a world with what its successful upserts and reverts have done: for each its row, the
paths it touched and the disk before it.  `revert_exact` says when, after any history, a revert is
exact: newer ops that changed one of its pages again are stamped later and spell a path as it does,
the wiki is where it was, and every page can be put back.
-/

namespace Mwe

open Str

/-! ## The revert -/

/-- Errors of a revert; internal errors are told apart by what failed. -/
inductive RevertError where
  | notFound (opId : ℤ)
  | noPreImage (opId : ℤ) (reason : Str)
  | notRevertable (opId : ℤ) (reason : Str)
  | targetChanged (conflictingOps : List ℤ) (conflictingPages : List Str)
  | malformedPreImage (opId : ℤ) (detail : Str)
  | badWikiId (e : SlugParseError)
  | locate (wikiId : WikiId) (e : WikiError)
  | restore (path : Str) (e : Fs.Errno)
  | io (e : Fs.Errno)
  | db (detail : Str)

/-- Return value of a revert. -/
structure RevertOutcome where
  compensatingOpId : ℤ
  restoredPages : List Str
  ts : Instant

/-- What a revert takes from elsewhere. -/
structure RevertEnv where
  tree : WikiTree
  now : Instant
  revertPayloadHash : ℤ → List Str → Str
  /-- What the insert of the compensating row fails with, when it does. -/
  dbError : Option Str

/-- The kinds of op that write. -/
def isWriteOpKind (opKind : Str) : Bool := "push_".toList.isPrefixOf opKind

/-- `op_kind LIKE 'push_%'`: the underscore stands for any one character. -/
def isPushLike (opKind : Str) : Bool :=
  "push".toList.isPrefixOf (toAsciiLowercase opKind) && 5 ≤ opKind.length

/-- A path of a meta file. -/
def isMetaPath (rel : Str) : Bool :=
  let normalised := rel.map fun c => if c = '\\' then '/' else c
  normalised = metaFilename || ('/' :: metaFilename).isSuffixOf normalised

/-- The pages of the target another row touched: all of them when its pre-image cannot be read. -/
def pagesIntersectTarget (neighbour : OpLogRow) (targetPages : List Str) : List Str :=
  match neighbour.preImage with
  | some (.ok pages) => (pages.map PreImagePage.path).filter (· ∈ targetPages)
  | _ => targetPages

/-- The write ops of the wiki stamped later than the target, by their ids. -/
def neighbours (log : OpLog) (target : OpLogRow) : List OpLogRow :=
  (log.rows.filter fun r =>
    r.wikiId == target.wikiId && decide (target.ts < r.ts) && isPushLike r.opKind).insertionSort
      fun a b => a.opId ≤ b.opId

/-- No write op stamped later may have touched a page of the target. -/
def checkConflicts (log : OpLog) (target : OpLogRow) (targetPages : List Str) :
    Except RevertError Unit :=
  let hits := (neighbours log target).filter fun r => pagesIntersectTarget r targetPages ≠ []
  if hits.isEmpty then .ok ()
  else .error (.targetChanged (hits.map OpLogRow.opId)
    ((hits.flatMap (pagesIntersectTarget · targetPages)).dedup.insertionSort (· ≤ ·)))

/-- The pre-image of a row that can be reverted. -/
def revertablePages (target : OpLogRow) : Except RevertError (List PreImagePage) := do
  let opId := target.opId
  Effect.require (isWriteOpKind target.opKind = true)
    (.notRevertable opId ("non-write op (".toList ++ target.opKind ++ ")".toList))
  Effect.require (target.actorKind ≠ .system) (.notRevertable opId
    ("this is a system compensation row (revert-of-revert is performed by clicking the original " ++
      "op again)").toList)
  let stored ← Effect.present target.preImage (.noPreImage opId
    "missing pre-image (legacy row, create row, or non-upsert write)".toList)
  let pages ← stored.mapError fun detail => .malformedPreImage opId detail
  Effect.require (∀ page ∈ pages, isMetaPath page.path = false) (.notRevertable opId
    ("pre-image references ".toList ++ metaFilename ++ " which is never revertable".toList))
  pure pages

/-- A page as it is before it is put back. -/
def readPostStateEntry (d : HostDisk) (dir : HostPath) (rel : Str) :
    Except RevertError PreImagePage :=
  match (follow d dir rel).bind (readToString d) with
  | .ok s => .ok ⟨rel, some s⟩
  | .error .notFound => .ok ⟨rel, none⟩
  | .error e => .error (.io e)

/-- What a revert has worked out once all its checks have passed. -/
structure RevertPlan where
  target : OpLogRow
  pages : List PreImagePage
  dir : HostPath
  postState : List PreImagePage

/-- Everything a revert checks and reads before its first write. -/
def revertPlan (env : RevertEnv) (opId : ℤ) (w : World) : Except RevertError RevertPlan := do
  let target ← Effect.present (w.opLog.rows.find? fun r => r.opId = opId) (.notFound opId)
  let pages ← revertablePages target
  checkConflicts w.opLog target (pages.map PreImagePage.path)
  let wikiId ← (WikiId.parse target.wikiId).mapError RevertError.badWikiId
  let handle ← (env.tree.locate w.disk wikiId).mapError fun e => .locate wikiId e
  let postState ← (pages.map PreImagePage.path).mapM (readPostStateEntry w.disk handle.absDir)
  pure { target, pages, dir := handle.absDir, postState }

/-- Make the directory of a page, when it is not there. -/
def makeParent (dir : HostPath) (rel : Str) : EStateM Fs.Errno HostDisk Unit :=
  change fun d =>
    let parent := (dir ++ pathNames rel).dropLast
    if d.node? parent = none then d.makeDirs [] parent else .ok d

/-- Put one page back: its content, or no page. -/
def restorePage (opId : ℤ) (dir : HostPath) (page : PreImagePage) :
    EStateM RevertError HostDisk Unit := do
  Effect.check fun _ => Effect.require (isSafePagePath page.path = true)
    (RevertError.notRevertable opId ("unsafe path in pre-image: ".toList ++ page.path))
  match page.content with
  | some body => do
    EStateM.adaptExcept RevertError.io (makeParent dir page.path)
    EStateM.adaptExcept (RevertError.restore page.path)
      (atomicWrite dir page.path (.text body))
  | none => do
    let there ← Effect.check fun d => .ok (pageExistsByteExact d dir page.path)
    if there then EStateM.adaptExcept RevertError.io (removeFileAt dir page.path) else pure ()

/-- Put the pages back one after the other. -/
def restorePages (opId : ℤ) (dir : HostPath) : List PreImagePage → EStateM RevertError HostDisk Unit
  | [] => pure ()
  | page :: pages => do
    restorePage opId dir page
    restorePages opId dir pages

/-- The compensating row. -/
def compensatingRow (env : RevertEnv) (plan : RevertPlan) (revertedBy : Str) (id : ℤ) :
    OpLogRow where
  opId := id
  wikiId := plan.target.wikiId
  senderId := revertedBy
  consumerId := none
  actorKind := .system
  opKind := "push_upsert".toList
  opMode := some "upsert".toList
  payloadHash := env.revertPayloadHash plan.target.opId (plan.pages.map PreImagePage.path)
  pagesAffected := min plan.pages.length (2 ^ 63 - 1)
  preImage := some (.ok plan.postState)
  ts := env.now

/-- Insert the compensating row. -/
def insertCompensation (env : RevertEnv) (plan : RevertPlan) (revertedBy : Str) :
    EStateM RevertError World ℤ := fun w =>
  match env.dbError with
  | some detail => .error (.db detail) w
  | none => .ok (w.opLog.lastId + 1)
    { w with opLog := w.opLog.insert (compensatingRow env plan revertedBy) fun _ => rfl }

/-- Revert an op. -/
def opRevert (env : RevertEnv) (opId : ℤ) (revertedBy : Str) :
    EStateM RevertError World RevertOutcome := do
  let plan ← Effect.check (revertPlan env opId)
  onDisk (restorePages opId plan.dir plan.pages)
  let id ← insertCompensation env plan revertedBy
  pure { compensatingOpId := id
         restoredPages := plan.pages.map PreImagePage.path
         ts := env.now }

/-! ## Putting pages back -/

namespace PreImagePage

/-- What putting a page back is. -/
def change (page : PreImagePage) : Change :=
  match page.content with
  | some body => .write true ⟨page.path, body⟩
  | none => .remove page.path

/-- Nothing stands against putting a page back. -/
def Fits (denied : HostPath → Bool) (dir : HostPath) (L : Layout) (page : PreImagePage) : Prop :=
  let target := dir ++ pathNames page.path
  match page.content with
  | some _ =>
    endsInDirectory page.path = false ∧ (∀ q, q <+: target.dropLast → L.file? q = none) ∧
      L target ≠ some .dir ∧ denied target = false ∧
      L (markerPath target) ≠ some .dir ∧ denied (markerPath target) = false
  | none =>
    L target = none ∨
      endsInDirectory page.path = false ∧ L.file? target ≠ none ∧ denied target = false

/-- The path is a page's, and no meta file's. -/
def Checked (page : PreImagePage) : Prop :=
  isSafePagePath page.path = true ∧ isMetaPath page.path = false

end PreImagePage

open Classical in
/-- The pages that are put back: those before the first that does not fit. -/
noncomputable def putBack (denied : HostPath → Bool) (dir : HostPath) :
    Layout → List PreImagePage → List PreImagePage
  | _, [] => []
  | L, page :: pages =>
    if page.Fits denied dir L then page :: putBack denied dir (page.change.apply dir L) pages
    else []

/-- A layout with pages put back. -/
def Layout.restored (L : Layout) (dir : HostPath) (pages : List PreImagePage) : Layout :=
  L.after dir (pages.map PreImagePage.change)

lemma target_change (dir : HostPath) (page : PreImagePage) :
    page.change.target dir = dir ++ pathNames page.path := by
  unfold PreImagePage.change Change.target
  cases page.content <;> rfl

/-- The directory of a page is made where a page can be written, and that stays so. -/
lemma makeParent_spec (dir : HostPath) {rel : Str} (d : HostDisk) (h : isSafePagePath rel = true) :
    (∃ e, makeParent dir rel d = .error e d ∧ ¬ Writable d dir rel) ∨
      ∃ d₁, makeParent dir rel d = .ok () d₁ ∧ (Writable d₁ dir rel ↔ Writable d dir rel) ∧
        d₁.denied = d.denied ∧ SamePages d d₁ ∧
        ∀ q, d₁.node? q = d.node? q ∨ q <+: (dir ++ pathNames rel).dropLast ∧
          d₁.node? q = some .dir := by
  have hne : dir ++ pathNames rel ≠ [] := by simp [(components_of_safe h).2]
  unfold makeParent change
  dsimp only
  split_ifs with hparent
  · cases hdirs : d.makeDirs [] (dir ++ pathNames rel).dropLast with
    | error e =>
      left
      refine ⟨e, rfl, ?_⟩
      intro hable
      obtain ⟨d₁, hok⟩ := (Fs.Disk.exists_makeDirs_iff d.node?_nil).mpr hable.way
      rw [hdirs] at hok
      cases hok
    | ok d₁ =>
      right
      obtain ⟨hdenied, -, -, hfiles⟩ := Fs.Disk.makeDirs_spec hdirs d.node?_nil
      have hnode := node?_makeDirs hdirs
      have hbeside : ∀ {q : HostPath}, q.length = (dir ++ pathNames rel).length →
          d₁.isDir q = d.isDir q := by
        intro q hlen
        apply isDir_congr
        rw [hnode, if_neg]
        apply not_prefix_of_length
        have := List.length_pos_of_ne_nil hne
        rw [List.length_dropLast]
        omega
      refine ⟨d₁, rfl, ?_, hdenied, fun q _ => hfiles q, ?_⟩
      · constructor
        · rintro ⟨hends, hway, hpage, hmarker⟩
          rw [hbeside rfl, hdenied] at hpage
          rw [hbeside (length_markerPath hne), hdenied] at hmarker
          exact ⟨hends, fun q hq => (hfiles q).symm.trans (hway q hq), hpage, hmarker⟩
        · rintro ⟨hends, hway, hpage, hmarker⟩
          rw [← hbeside rfl, ← hdenied] at hpage
          rw [← hbeside (length_markerPath hne), ← hdenied] at hmarker
          exact ⟨hends, fun q hq => (hfiles q).trans (hway q hq), hpage, hmarker⟩
      · intro q
        rw [hnode]
        split_ifs with hq
        · exact .inr ⟨hq, rfl⟩
        · exact .inl rfl
  · exact .inr ⟨d, rfl, Iff.rfl, rfl, .refl d, fun q => .inl rfl⟩

lemma fits_some_iff {d : HostDisk} {dir : HostPath} {rel body : Str} :
    PreImagePage.Fits d.denied dir (layoutOf d) ⟨rel, some body⟩ ↔ Writable d dir rel := by
  constructor
  · rintro ⟨hends, hway, hnot, hallowed, hmarker, hmallowed⟩
    refine ⟨hends, ?_, ⟨Fs.Disk.isDir_eq_false_iff.mpr hnot, hallowed⟩,
      ⟨Fs.Disk.isDir_eq_false_iff.mpr hmarker, hmallowed⟩⟩
    intro q hq
    rw [← file?_layoutOf]
    exact hway q hq
  · rintro ⟨hends, hway, hpage, hmarker⟩
    refine ⟨hends, ?_, Fs.Disk.isDir_eq_false_iff.mp hpage.1, hpage.2,
      Fs.Disk.isDir_eq_false_iff.mp hmarker.1, hmarker.2⟩
    intro q hq
    rw [file?_layoutOf]
    exact hway q hq

/-- Putting a page back goes through exactly when the page fits; when it does not go through, every
page is as it was. -/
lemma restorePage_spec (opId : ℤ) (dir : HostPath) {page : PreImagePage} (hpage : page.Checked)
    (d : HostDisk) :
    (page.Fits d.denied dir (layoutOf d) ∧ ∃ d', restorePage opId dir page d = .ok () d' ∧
        layoutOf d' = page.change.apply dir (layoutOf d) ∧ d'.denied = d.denied) ∨
      (¬ page.Fits d.denied dir (layoutOf d) ∧ ∃ e d', restorePage opId dir page d = .error e d' ∧
        SamePages d d') := by
  obtain ⟨rel, content⟩ := page
  obtain ⟨hsafe, hmeta⟩ := hpage
  dsimp only at hsafe hmeta
  unfold restorePage
  rw [Effect.check_bind, Effect.require, if_pos hsafe]
  cases content with
  | some body =>
    dsimp only
    rw [fits_some_iff]
    rcases makeParent_spec dir d hsafe with
      ⟨e, hfail, hnot⟩ | ⟨d₁, hok, hable, hdenied, hsame, hnode⟩
    · right
      refine ⟨hnot, .io e, d, Effect.bind_of_error ?_, .refl d⟩
      exact Effect.adaptExcept_error_iff.mpr ⟨e, hfail, rfl⟩
    · rw [Effect.bind_of_ok (Effect.adaptExcept_ok_iff.mpr hok), ← hable]
      cases hwrite : atomicWrite dir rel (.text body) d₁ with
      | error e d₂ =>
        right
        refine ⟨?_, .restore rel e, d₂, Effect.adaptExcept_error_iff.mpr ⟨e, hwrite, rfl⟩,
          hsame.trans (atomicWrite_error hsafe hwrite).2⟩
        intro hcan
        obtain ⟨d', hdone⟩ := hcan.exists_atomicWrite (.text body) hsafe
        rw [hwrite] at hdone
        cases hdone
      | ok u d₂ =>
        left
        obtain ⟨hdenied₂, hnode₂⟩ := node?_atomicWrite hsafe hwrite
        refine ⟨.of_atomicWrite hsafe hwrite, d₂, Effect.adaptExcept_ok_iff.mpr hwrite, ?_,
          hdenied₂.trans hdenied⟩
        funext q
        change d₂.node? q = if q = dir ++ pathNames rel then _ else _
        rw [hnode₂]
        by_cases htarget : q = dir ++ pathNames rel
        · rw [if_pos htarget, if_pos htarget]
        · rw [if_neg htarget, if_neg htarget]
          change _ = if q = markerPath (dir ++ pathNames rel) then _ else _
          by_cases hmarker : q = markerPath (dir ++ pathNames rel)
          · rw [if_pos hmarker, if_pos hmarker]
          · rw [if_neg hmarker, if_neg hmarker]
            change _ = if q <+: dir ++ pathNames rel then _ else _
            by_cases hway : q <+: dir ++ pathNames rel
            · rw [if_pos hway, if_pos hway]
            · rw [if_neg hway, if_neg hway]
              rcases hnode q with hq | ⟨hq, -⟩
              · exact hq
              · exact absurd (hq.trans (List.dropLast_prefix _)) hway
  | none =>
    dsimp only
    rw [Effect.check_bind]
    dsimp only
    cases hthere : pageExistsByteExact d dir rel with
    | false =>
      left
      have hnone : d.node? (dir ++ pathNames rel) = none := by
        by_contra hne
        rw [(pageExistsByteExact_iff hsafe).mpr hne] at hthere
        cases hthere
      refine ⟨.inl hnone, d, rfl, ?_, rfl⟩
      funext q
      change d.node? q = if q = dir ++ pathNames rel then none else d.node? q
      split_ifs with hq
      · rw [hq]
        exact hnone
      · rfl
    | true =>
      have hsome := (pageExistsByteExact_iff hsafe).mp hthere
      have hname : rel ≠ metaFilename := by
        rintro rfl
        revert hmeta
        decide +kernel
      have hallow : admitDelete dir rel d = .ok () :=
        admitDelete_ok_iff.mpr ⟨hsafe, hname, hthere⟩
      have hdelete : deletePage dir rel d =
          EStateM.adaptExcept AdminError.io (removeFileAt dir rel) d := by
        unfold deletePage
        rw [Effect.check_bind, hallow]
      rw [if_pos rfl]
      cases hremove : removeFileAt dir rel d with
      | ok u d' =>
        left
        obtain ⟨hfits, hlayout, hdenied⟩ :=
          deletePage_ok (hdelete.trans (Effect.adaptExcept_ok_iff.mpr hremove))
        exact ⟨.inr ⟨hfits.2.2.1, hfits.2.2.2.1, hfits.2.2.2.2⟩, d',
          Effect.adaptExcept_ok_iff.mpr hremove, hlayout, hdenied⟩
      | error e d' =>
        right
        have hfail : deletePage dir rel d = .error (.io e) d' :=
          hdelete.trans (Effect.adaptExcept_error_iff.mpr ⟨e, hremove, rfl⟩)
        refine ⟨?_, .io e, d', Effect.adaptExcept_error_iff.mpr ⟨e, hremove, rfl⟩, ?_⟩
        · rintro (hnone | ⟨hends, hfile, hallowed⟩)
          · exact hsome hnone
          · have hfits : (Change.remove rel).Fits d.denied dir (layoutOf d) :=
              ⟨hsafe, hname, hends, hfile, hallowed⟩
            obtain ⟨d'', hok⟩ := exists_deletePage hfits
            rw [hfail] at hok
            cases hok
        · rw [deletePage_error hfail]
          exact .refl d

/-- The pages that fit are put back; when that is not all of them, the revert fails and nothing more
happens to a page. -/
theorem restorePages_spec (opId : ℤ) (dir : HostPath) {pages : List PreImagePage}
    (hpages : ∀ page ∈ pages, page.Checked) (d : HostDisk) :
    ∃ d₁, layoutOf d₁ = (layoutOf d).restored dir (putBack d.denied dir (layoutOf d) pages) ∧
      (putBack d.denied dir (layoutOf d) pages = pages ∧ restorePages opId dir pages d = .ok () d₁ ∨
        putBack d.denied dir (layoutOf d) pages ≠ pages ∧
          ∃ e d', restorePages opId dir pages d = .error e d' ∧ SamePages d₁ d') := by
  induction pages generalizing d with
  | nil => exact ⟨d, rfl, .inl ⟨rfl, rfl⟩⟩
  | cons page pages ih =>
    have hrest : ∀ page ∈ pages, page.Checked := fun p hp => hpages p (List.mem_cons_of_mem _ hp)
    rw [putBack, restorePages]
    rcases restorePage_spec opId dir (hpages page List.mem_cons_self) d with
      ⟨hfits, d', hok, hlayout, hdenied⟩ | ⟨hnot, e, d', herror, hsame⟩
    · obtain ⟨d₁, hafter, hrun⟩ := ih hrest d'
      rw [hdenied, hlayout] at hafter hrun
      rw [if_pos hfits, Effect.bind_of_ok hok]
      refine ⟨d₁, hafter, ?_⟩
      rcases hrun with ⟨hall, hok'⟩ | ⟨hsome, e, d'', herror, hsame⟩
      · exact .inl ⟨by rw [hall], hok'⟩
      · exact .inr ⟨fun heq => hsome (List.cons.inj heq).2, e, d'', herror, hsame⟩
    · rw [if_neg hnot, Effect.bind_of_error herror]
      exact ⟨d, rfl, .inr ⟨by simp, e, d', rfl, hsame⟩⟩

/-! ## Histories -/

namespace Reverts

/-- What a successful upsert or revert has done: its row, the paths it touched, the disk before. -/
structure Done where
  opId : ℤ
  ts : Instant
  dir : HostPath
  paths : List Str
  before : HostDisk

/-- A page an op touched. -/
def Done.Touches (op : Done) (q : HostPath) : Prop :=
  isMarkerPath q = false ∧ ∃ path ∈ op.paths, op.dir ++ pathNames path = q

/-- A world, and what was done in it, oldest first. -/
structure Book where
  world : World
  done : List Done

/-- An upsert or a revert that succeeds. -/
inductive Event where
  | upsert (env : PushEnv) (caller : AdminCaller) (req : PushRequest)
  | revert (env : RevertEnv) (opId : ℤ) (revertedBy : Str)

variable (wiki : WikiId)

/-- An op of one wiki succeeds. -/
def Book.step (s : Book) : Event → Option Book
  | .upsert env caller req =>
    if req.mode = .upsert ∧ req.wikiId = some wiki then
      match targetDir env req s.world, push env caller req s.world with
      | some dir, .ok resp world =>
        some { world, done := s.done ++
          [⟨resp.opLogId, env.loggedAt, dir, touchedPaths req, s.world.disk⟩] }
      | _, _ => none
    else none
  | .revert env opId revertedBy =>
    match revertPlan env opId s.world, opRevert env opId revertedBy s.world with
    | .ok plan, .ok out world =>
      if plan.target.wikiId = wiki.val then
        some { world, done := s.done ++
          [⟨out.compensatingOpId, out.ts, plan.dir, out.restoredPages, s.world.disk⟩] }
      else none
    | _, _ => none

/-- A revert of an op of the wiki is exact: when it fails no page is changed; when it returns, the op
is one of the history, each page it touched is as it was before it, and no page a newer op touched
is changed. -/
structure Exact (s : Book) (env : RevertEnv) (opId : ℤ) (revertedBy : Str) : Prop where
  failed : ∀ e w, opRevert env opId revertedBy s.world = .error e w → SamePages s.world.disk w.disk
  restored : ∀ out w, opRevert env opId revertedBy s.world = .ok out w →
    ∃ op ∈ s.done, op.opId = opId ∧
      ∀ q, op.Touches q → w.disk.file? q = op.before.file? q
  kept : ∀ out w, opRevert env opId revertedBy s.world = .ok out w →
    ∀ later ∈ s.done, opId < later.opId → ∀ q, later.Touches q →
      w.disk.file? q = s.world.disk.file? q

/-- A write op of the wiki that is stamped later names a path of the op, or may have. -/
def Warned (log : OpLog) (op : Done) : Prop :=
  ∃ r ∈ log.rows, r.wikiId = wiki.val ∧ op.ts < r.ts ∧ isPushLike r.opKind = true ∧
    ∃ path ∈ op.paths, ∀ pages, r.preImage = some (.ok pages) →
      path ∈ pages.map PreImagePage.path

/-- The pages of the op that newer ops touched are as they were before it. -/
def Unclobbered (s : Book) (op : Done) : Prop :=
  ∀ later ∈ s.done, op.opId < later.opId → ∀ q, op.Touches q → later.Touches q →
    s.world.disk.file? q = op.before.file? q

/-- Every page can be put back and the row inserted, or the pages that are put back before one that
cannot be are as they were. -/
def Stands (d : HostDisk) (env : RevertEnv) (dir : HostPath) (pages : List PreImagePage) : Prop :=
  putBack d.denied dir (layoutOf d) pages = pages ∧ env.dbError = none ∨
    ∀ q, isMarkerPath q = false →
      ((layoutOf d).restored dir (putBack d.denied dir (layoutOf d) pages)).file? q = d.file? q

/-- What a revert needs to be exact. -/
def Clear (s : Book) (env : RevertEnv) (opId : ℤ) : Prop :=
  ∀ op ∈ s.done, op.opId = opId → ∀ row ∈ s.world.opLog.rows, row.opId = opId →
    row.actorKind ≠ .system → ∀ pages, row.preImage = some (.ok pages) →
      Warned wiki s.world.opLog op ∨
        Unclobbered s op ∧
          (∀ handle, env.tree.locate s.world.disk wiki = .ok handle → handle.absDir = op.dir) ∧
          Stands s.world.disk env op.dir pages

/-! ### What the log says of the history -/

/-- The row of an op, unless it is a compensation, has what the op's pages were before it. -/
structure Recorded (op : Done) (row : OpLogRow) : Prop where
  opId : row.opId = op.opId
  ts : row.ts = op.ts
  wikiId : row.wikiId = wiki.val
  pages : row.actorKind = .system ∨ ∃ pages, row.preImage = some (.ok pages) ∧
    pages.map PreImagePage.path = op.paths ∧ ∀ page ∈ pages,
      isSafePagePath page.path = true ∧ (isMetaPath page.path = false →
        isMarkerPath (op.dir ++ pathNames page.path) = false →
          page.content.map FileBytes.text = op.before.file? (op.dir ++ pathNames page.path))

/-- Every op of the history has its row, and every row of the wiki that has a pre-image its op. -/
structure Sound (s : Book) : Prop where
  recorded : ∀ op ∈ s.done, ∃ row ∈ s.world.opLog.rows, Recorded wiki op row
  known : ∀ row ∈ s.world.opLog.rows, row.wikiId = wiki.val → row.preImage ≠ none →
    ∃ op ∈ s.done, op.opId = row.opId

lemma last_piece {s last : Str} {init : List Str} (h : pieces s = init ++ [last]) :
    s = last ∨ ∃ before, s = before ++ '/' :: last := by
  unfold pieces at h
  induction hlen : s.length using Nat.strong_induction_on generalizing s init with
  | _ n ih =>
    by_cases hsep : '/' ∈ s
    · right
      obtain ⟨head, rest, rfl, hhead⟩ := List.eq_append_cons_of_mem hsep
      rw [List.splitOn_append_cons_self_of_not_mem hhead] at h
      cases init with
      | nil =>
        have hnil : rest.splitOn '/' = [] := (List.cons.inj h).2
        simp at hnil
      | cons piece init =>
        rcases ih rest.length (by rw [← hlen]; simp; omega) (List.cons.inj h).2 rfl with
          hrest | ⟨before, hrest⟩
        · exact ⟨head, by rw [hrest]⟩
        · exact ⟨head ++ '/' :: before, by rw [hrest]; simp⟩
    · left
      rw [List.splitOn_eq_singleton hsep] at h
      cases init with
      | nil => exact List.head_eq_of_cons_eq h
      | cons piece init => simp at h

/-- A path that leads to the wiki's own meta file is a meta file's. -/
lemma isMetaPath_of_target {dir : HostPath} {rel : Str} (hsafe : isSafePagePath rel = true)
    (hends : endsInDirectory rel = false) (h : dir ++ pathNames rel = dir ++ [metaFilename]) :
    isMetaPath rel = true := by
  have hnames : pathNames rel = [metaFilename] := List.append_cancel_left h
  obtain ⟨init, last, hpieces, -⟩ := pieces_append (s := rel) (t := []) (by simp)
  have hlast := (pathNames_of_pieces hsafe hpieces).1
  rw [hends, hnames] at hlast
  have hmeta : last = metaFilename := by
    have := congrArg List.getLast? hlast
    simpa using this.symm
  have hkept : metaFilename.map (fun c => if c = '\\' then '/' else c) = metaFilename := by
    decide +kernel
  unfold isMetaPath
  dsimp only
  rcases last_piece hpieces with hrel | ⟨before, hrel⟩
  · rw [hrel, hmeta, hkept]
    simp
  · rw [hrel, hmeta, List.map_append, List.map_cons, if_neg (by decide), hkept]
    simp

lemma readPreImageEntry_path {d : HostDisk} {dir : HostPath} {rel : Str} {entry : PreImagePage}
    (h : readPreImageEntry d dir rel = .ok entry) : entry.path = rel := by
  unfold readPreImageEntry at h
  split at h
  · obtain rfl := Except.ok.inj h
    rfl
  · obtain rfl := Except.ok.inj h
    rfl
  · cases h

lemma readPostStateEntry_path {d : HostDisk} {dir : HostPath} {rel : Str} {entry : PreImagePage}
    (h : readPostStateEntry d dir rel = .ok entry) : entry.path = rel := by
  unfold readPostStateEntry at h
  split at h
  · obtain rfl := Except.ok.inj h
    rfl
  · obtain rfl := Except.ok.inj h
    rfl
  · cases h

lemma exists_change_of_touched {s : PushStart} {req : PushRequest} {path : Str}
    (h : path ∈ touchedPaths req) : ∃ c ∈ s.changes req, c.path = path := by
  unfold touchedPaths at h
  rw [List.mem_eraseDups, List.mem_append] at h
  unfold PushStart.changes changesOf
  rcases h with h | h
  · obtain ⟨page, hpage, rfl⟩ := List.mem_map.mp h
    exact ⟨.write s.overwrite page, by simp [hpage], rfl⟩
  · exact ⟨.remove path, by simp [h], rfl⟩

lemma pushPrepare_wikiId {env : PushEnv} {caller : AdminCaller} {req : PushRequest}
    {w w₁ : World} {start : PushStart} (hmode : req.mode = .upsert)
    (h : pushPrepare env caller req w = .ok start w₁) : req.wikiId = some start.wikiId := by
  unfold pushPrepare at h
  obtain ⟨_, w₂, -, h⟩ := Effect.bind_ok_iff.mp h
  rw [hmode] at h
  dsimp only at h
  obtain ⟨wikiId, w₃, hcheck, h⟩ := Effect.bind_ok_iff.mp h
  obtain ⟨handle, w₄, -, h⟩ := Effect.bind_ok_iff.mp h
  obtain ⟨_, w₅, -, h⟩ := Effect.bind_ok_iff.mp h
  obtain ⟨_, w₆, -, h⟩ := Effect.bind_ok_iff.mp h
  obtain ⟨plan, w₇, -, h⟩ := Effect.bind_ok_iff.mp h
  obtain ⟨rfl, -⟩ := EStateM.Result.ok.inj h
  exact upsertTarget_ok (Effect.check_ok_iff.mp hcheck).1

/-- The row a push leaves. -/
lemma pushPages_row {env : PushEnv} {caller : AdminCaller} {req : PushRequest} {w₁ w' : World}
    {start : PushStart} {resp : PushResponse}
    (h : pushPages env caller req start w₁ = .ok resp w') :
    ∃ ops, w'.opLog.rows = w₁.opLog.rows ++
      [pushRow env caller req start.wikiId ops start.preImage resp.opLogId] := by
  unfold pushPages at h
  obtain ⟨ops, w₂, hlists, h⟩ := Effect.bind_ok_iff.mp h
  obtain ⟨id, w₃, hcommit, h⟩ := Effect.bind_ok_iff.mp h
  obtain ⟨rfl, rfl⟩ := EStateM.Result.ok.inj h
  obtain ⟨rfl, rfl⟩ := EStateM.Result.ok.inj hcommit
  have hlog : w₂.opLog = w₁.opLog := by
    have hfinal := final_onDisk (pushLists start.overwrite start.dir req) w₁
    rw [hlists] at hfinal
    rw [show w₂ = _ from hfinal]
  refine ⟨ops, ?_⟩
  change w₂.opLog.rows ++ _ = _
  rw [hlog]

/-- What an upsert that returns has recorded. -/
lemma recorded_of_push {wiki : WikiId} {env : PushEnv} {caller : AdminCaller} {req : PushRequest}
    {w w' : World} {resp : PushResponse} {dir : HostPath} (hmode : req.mode = .upsert)
    (hwiki : req.wikiId = some wiki) (hdir : targetDir env req w = some dir)
    (h : push env caller req w = .ok resp w') :
    ∃ row, w'.opLog.rows = w.opLog.rows ++ [row] ∧
      Recorded wiki ⟨resp.opLogId, env.loggedAt, dir, touchedPaths req, w.disk⟩ row := by
  rw [push_eq] at h
  obtain ⟨start, w₁, hprepare, hpages⟩ := Effect.bind_ok_iff.mp h
  obtain ⟨htarget, hvalid, hpre⟩ := pushPrepare_ok hprepare
  obtain rfl : start.dir = dir := Option.some.inj (htarget.symm.trans hdir)
  obtain ⟨pre, hstored, hsnapshot⟩ := hpre hmode
  obtain rfl : start.wikiId = wiki :=
    Option.some.inj ((pushPrepare_wikiId hmode hprepare).symm.trans hwiki)
  have hbefore : SameBefore env req w w₁ := by
    have := sameBefore_pushPrepare env caller req w
    rwa [hprepare] at this
  obtain ⟨ops, hrows⟩ := pushPages_row hpages
  refine ⟨_, by rw [hrows, hbefore.opLog], rfl, rfl, rfl, .inr ⟨pre, by rw [pushRow, hstored]; rfl,
    Effect.except_mapM_map (fun _ _ => readPreImageEntry_path) hsnapshot, ?_⟩⟩
  -- every path the request touches was written or deleted, so it is a page's
  have hall : start.carriedOut req w₁ = start.changes req := by
    obtain ⟨d₁, -, ⟨hall, -⟩ | ⟨-, e, w'', herror, -⟩⟩ :=
      pushPages_spec env caller w₁ start hvalid
    · exact hall
    · rw [hpages] at herror
      cases herror
  intro page hpage
  obtain ⟨rel, hrel, hread⟩ := Effect.except_mapM_mem hsnapshot hpage
  obtain ⟨c, hc, rfl⟩ := exists_change_of_touched (s := start) hrel
  obtain ⟨-, L, hfits⟩ := carried_subset (hall ▸ hc : c ∈ start.carriedOut req w₁)
  obtain ⟨hsafe, hends⟩ := hfits.path (checked_changes hvalid c hc)
  obtain ⟨hpath, hcontent⟩ := readPreImageEntry_ok hsafe hends hread
  rw [hpath]
  refine ⟨hsafe, ?_⟩
  intro hmeta hmarker
  rw [hcontent]
  apply hbefore.files
  refine ⟨hmarker, ?_⟩
  intro dir hdir' heq
  obtain rfl : start.dir = dir := Option.some.inj (htarget.symm.trans hdir')
  rw [isMetaPath_of_target hsafe hends heq] at hmeta
  cases hmeta

/-! ### What a revert does -/

/-- What has passed the checks of a revert. -/
lemma revertPlan_ok {env : RevertEnv} {opId : ℤ} {w : World} {plan : RevertPlan}
    (h : revertPlan env opId w = .ok plan) :
    plan.target ∈ w.opLog.rows ∧ plan.target.opId = opId ∧ plan.target.actorKind ≠ .system ∧
      plan.target.preImage = some (.ok plan.pages) ∧
      (∀ page ∈ plan.pages, isMetaPath page.path = false) ∧
      checkConflicts w.opLog plan.target (plan.pages.map PreImagePage.path) = .ok () ∧
      (∃ wikiId handle, WikiId.parse plan.target.wikiId = .ok wikiId ∧
        env.tree.locate w.disk wikiId = .ok handle ∧ plan.dir = handle.absDir) ∧
      plan.postState.map PreImagePage.path = plan.pages.map PreImagePage.path := by
  unfold revertPlan at h
  obtain ⟨target, hfind, h⟩ := Effect.except_bind_ok_iff.mp h
  obtain ⟨pages, hpages, h⟩ := Effect.except_bind_ok_iff.mp h
  obtain ⟨_, hconflicts, h⟩ := Effect.except_bind_ok_iff.mp h
  obtain ⟨wikiId, hparse, h⟩ := Effect.except_bind_ok_iff.mp h
  obtain ⟨handle, hlocate, h⟩ := Effect.except_bind_ok_iff.mp h
  obtain ⟨post, hpost, h⟩ := Effect.except_bind_ok_iff.mp h
  obtain rfl := Except.ok.inj h
  rw [Effect.present_ok_iff] at hfind
  unfold revertablePages at hpages
  obtain ⟨_, -, hpages⟩ := Effect.except_bind_ok_iff.mp hpages
  obtain ⟨_, hactor, hpages⟩ := Effect.except_bind_ok_iff.mp hpages
  obtain ⟨stored, hstored, hpages⟩ := Effect.except_bind_ok_iff.mp hpages
  obtain ⟨read, hread, hpages⟩ := Effect.except_bind_ok_iff.mp hpages
  obtain ⟨_, hmeta, hpages⟩ := Effect.except_bind_ok_iff.mp hpages
  obtain rfl : read = pages := Except.ok.inj hpages
  rw [Effect.mapError_ok_iff] at hread hparse hlocate
  rw [Effect.present_ok_iff] at hstored
  exact ⟨List.mem_of_find?_eq_some hfind, by simpa using List.find?_some hfind,
    Effect.require_ok_iff.mp hactor, by rw [hstored, hread], Effect.require_ok_iff.mp hmeta,
    hconflicts, ⟨wikiId, handle, hparse, hlocate, rfl⟩,
    Effect.except_mapM_map (fun _ _ => readPostStateEntry_path) hpost⟩

/-- A warned op is refused. -/
lemma not_warned {wiki : WikiId} {log : OpLog} {target : OpLogRow} {op : Done}
    {paths : List Str} (hts : target.ts = op.ts) (hwiki : target.wikiId = wiki.val)
    (hpaths : paths = op.paths) (h : checkConflicts log target paths = .ok ()) :
    ¬ Warned wiki log op := by
  rintro ⟨r, hr, hrwiki, hlater, hkind, path, hpath, hnames⟩
  unfold checkConflicts at h
  dsimp only at h
  split_ifs at h with hnone
  rw [List.isEmpty_iff, List.filter_eq_nil_iff] at hnone
  have hneighbour : r ∈ neighbours log target := by
    unfold neighbours
    rw [List.mem_insertionSort, List.mem_filter]
    simp [hr, hrwiki, hwiki, hts, hlater, hkind]
  apply hnone r hneighbour
  rw [decide_eq_true_eq]
  apply List.ne_nil_of_mem (a := path)
  unfold pagesIntersectTarget
  split
  · next pages hpages =>
    rw [List.mem_filter, hpaths]
    simp [hnames pages hpages, hpath]
  · rw [hpaths]
    exact hpath

/-- A revert that returns has passed its checks, put its pages back and left its row. -/
lemma opRevert_ok {env : RevertEnv} {opId : ℤ} {revertedBy : Str} {w w' : World}
    {out : RevertOutcome} (h : opRevert env opId revertedBy w = .ok out w') :
    ∃ plan, revertPlan env opId w = .ok plan ∧
      restorePages opId plan.dir plan.pages w.disk = .ok () w'.disk ∧
      w'.opLog.rows = w.opLog.rows ++
        [compensatingRow env plan revertedBy out.compensatingOpId] ∧
      out.ts = env.now ∧ out.restoredPages = plan.pages.map PreImagePage.path := by
  unfold opRevert at h
  obtain ⟨plan, w₁, hcheck, hrest⟩ := Effect.bind_ok_iff.mp h
  obtain ⟨hplan, rfl⟩ := Effect.check_ok_iff.mp hcheck
  obtain ⟨_, w₂, hdisk, hrow⟩ := Effect.bind_ok_iff.mp hrest
  obtain ⟨d, hrestore, rfl⟩ := onDisk_ok_iff.mp hdisk
  obtain ⟨id, w₃, hinsert, hpure⟩ := Effect.bind_ok_iff.mp hrow
  obtain ⟨rfl, rfl⟩ := EStateM.Result.ok.inj hpure
  unfold insertCompensation at hinsert
  split at hinsert
  · cases hinsert
  · obtain ⟨rfl, rfl⟩ := EStateM.Result.ok.inj hinsert
    exact ⟨plan, hplan, hrestore, rfl, rfl, rfl⟩

/-- A revert that fails has failed its checks, or the disk or the database has failed it. -/
lemma opRevert_error {env : RevertEnv} {opId : ℤ} {revertedBy : Str} {w w' : World}
    {e : RevertError} (h : opRevert env opId revertedBy w = .error e w') :
    w'.disk = w.disk ∨ ∃ plan, revertPlan env opId w = .ok plan ∧
      ((∃ e', restorePages opId plan.dir plan.pages w.disk = .error e' w'.disk) ∨
        restorePages opId plan.dir plan.pages w.disk = .ok () w'.disk ∧ env.dbError ≠ none) := by
  unfold opRevert at h
  rcases Effect.bind_error_iff.mp h with hcheck | ⟨plan, w₁, hcheck, hrest⟩
  · rw [(Effect.check_error_iff.mp hcheck).2]
    exact .inl rfl
  obtain ⟨hplan, rfl⟩ := Effect.check_ok_iff.mp hcheck
  right
  refine ⟨plan, hplan, ?_⟩
  rcases Effect.bind_error_iff.mp hrest with hdisk | ⟨_, w₂, hdisk, hrow⟩
  · obtain ⟨d, hrestore, rfl⟩ := onDisk_error_iff.mp hdisk
    exact .inl ⟨e, hrestore⟩
  obtain ⟨d, hrestore, rfl⟩ := onDisk_ok_iff.mp hdisk
  rcases Effect.bind_error_iff.mp hrow with hinsert | ⟨id, w₃, -, hpure⟩
  · unfold insertCompensation at hinsert
    split at hinsert
    · next detail hdb =>
      obtain ⟨-, rfl⟩ := EStateM.Result.error.inj hinsert
      exact .inr ⟨hrestore, by simp [hdb]⟩
    · cases hinsert
  · cases hpure

/-- Putting pages back leaves on each the content it is put back with, and no other page changed. -/
lemma file?_restorePages {opId : ℤ} {dir : HostPath} {pages : List PreImagePage} {d d' : HostDisk}
    {u : Unit} {was : HostPath → Option FileBytes} (hpages : ∀ page ∈ pages, page.Checked)
    (hwas : ∀ page ∈ pages, isMarkerPath (dir ++ pathNames page.path) = false →
      page.content.map FileBytes.text = was (dir ++ pathNames page.path))
    (h : restorePages opId dir pages d = .ok u d') {q : HostPath} (hq : isMarkerPath q = false) :
    ((∃ page ∈ pages, dir ++ pathNames page.path = q) → d'.file? q = was q) ∧
      ((∀ page ∈ pages, dir ++ pathNames page.path ≠ q) → d'.file? q = d.file? q) := by
  induction pages generalizing d with
  | nil =>
    obtain ⟨-, rfl⟩ := EStateM.Result.ok.inj h
    simp
  | cons page pages ih =>
    rw [restorePages] at h
    obtain ⟨u₁, d₁, hfirst, hrest⟩ := Effect.bind_ok_iff.mp h
    obtain ⟨hlater, hother⟩ := ih (fun p hp => hpages p (List.mem_cons_of_mem _ hp))
      (fun p hp => hwas p (List.mem_cons_of_mem _ hp)) hrest
    have hone : d₁.file? q = if dir ++ pathNames page.path = q then
        page.content.map FileBytes.text else d.file? q := by
      rcases restorePage_spec opId dir (hpages page List.mem_cons_self) d with
        ⟨hfits, d₂, hok, hlayout, -⟩ | ⟨-, e, d₂, herror, -⟩
      · rw [hfirst] at hok
        obtain ⟨-, rfl⟩ := EStateM.Result.ok.inj hok
        rw [← file?_layoutOf, hlayout, Change.file?_apply _ hq, target_change, file?_layoutOf]
        · congr 1
          unfold PreImagePage.change Change.content?
          cases page.content <;> rfl
        · intro hwrites
          rw [target_change]
          obtain ⟨rel, content⟩ := page
          cases content with
          | none => exact absurd rfl hwrites
          | some body => exact hfits.2.1
      · rw [hfirst] at herror
        cases herror
    constructor
    · rintro ⟨p, hp, htarget⟩
      by_cases hmore : ∃ p ∈ pages, dir ++ pathNames p.path = q
      · exact hlater hmore
      · push Not at hmore
        rcases List.mem_cons.mp hp with rfl | hp
        · rw [hother hmore, hone, if_pos htarget, hwas p List.mem_cons_self (by rwa [htarget]),
            htarget]
        · exact absurd htarget (hmore p hp)
    · intro hnone
      rw [hother fun p hp => hnone p (List.mem_cons_of_mem _ hp), hone,
        if_neg (hnone page List.mem_cons_self)]

/-! ### Histories keep the record -/

/-- A row more, of an op that is recorded. -/
lemma Sound.snoc {wiki : WikiId} {s : Book} {w : World} {op : Done} {row : OpLogRow}
    (hs : Sound wiki s) (hrows : w.opLog.rows = s.world.opLog.rows ++ [row])
    (hrow : Recorded wiki op row) : Sound wiki { world := w, done := s.done ++ [op] } := by
  constructor
  · intro op' hop'
    rcases List.mem_append.mp hop' with hop' | hop'
    · obtain ⟨r, hr, hrec⟩ := hs.recorded op' hop'
      exact ⟨r, by rw [hrows]; exact List.mem_append_left _ hr, hrec⟩
    · rw [List.mem_singleton.mp hop']
      exact ⟨row, by rw [hrows]; exact List.mem_append_right _ List.mem_cons_self, hrow⟩
  · intro r hr hwiki hpre
    rw [hrows] at hr
    rcases List.mem_append.mp hr with hr | hr
    · obtain ⟨op', hop', hid⟩ := hs.known r hr hwiki hpre
      exact ⟨op', List.mem_append_left _ hop', hid⟩
    · rw [List.mem_singleton.mp hr]
      exact ⟨op, by simp, hrow.opId.symm⟩

lemma sound_step {wiki : WikiId} {s t : Book} {e : Event} (h : Book.step wiki s e = some t)
    (hs : Sound wiki s) : Sound wiki t := by
  cases e with
  | upsert env caller req =>
    unfold Book.step at h
    dsimp only at h
    split_ifs at h with hreq
    split at h
    · next dir resp w hdir hpush =>
      obtain rfl := Option.some.inj h
      obtain ⟨row, hrows, hrow⟩ := recorded_of_push hreq.1 hreq.2 hdir hpush
      exact hs.snoc hrows hrow
    · cases h
  | revert env opId revertedBy =>
    unfold Book.step at h
    dsimp only at h
    split at h
    · next plan out w hplan hrevert =>
      split_ifs at h with hwiki
      obtain rfl := Option.some.inj h
      obtain ⟨plan', hplan', -, hrows, hts, -⟩ := opRevert_ok hrevert
      obtain rfl : plan = plan' := Except.ok.inj (hplan.symm.trans hplan')
      exact hs.snoc hrows ⟨rfl, hts.symm, hwiki, .inl rfl⟩
    · cases h

/-- What the book says of an op of the wiki that passes the checks of a revert. -/
lemma Sound.plan {wiki : WikiId} {s : Book} (hs : Sound wiki s) {env : RevertEnv} {opId : ℤ}
    {plan : RevertPlan} (hwiki : ∀ r ∈ s.world.opLog.rows, r.opId = opId → r.wikiId = wiki.val)
    (h : revertPlan env opId s.world = .ok plan) :
    ∃ op ∈ s.done, op.opId = opId ∧ Recorded wiki op plan.target ∧
      plan.pages.map PreImagePage.path = op.paths ∧ ∀ page ∈ plan.pages, page.Checked ∧
        (isMarkerPath (op.dir ++ pathNames page.path) = false →
          page.content.map FileBytes.text = op.before.file? (op.dir ++ pathNames page.path)) := by
  obtain ⟨htarget, hid, hactor, hpre, hmeta, -⟩ := revertPlan_ok h
  obtain ⟨op, hop, hopId⟩ := hs.known plan.target htarget (hwiki _ htarget hid) (by simp [hpre])
  obtain ⟨row, hrow, hrec⟩ := hs.recorded op hop
  obtain rfl : row = plan.target := by
    apply List.inj_on_of_nodup_map s.world.opLog.nodup hrow htarget
    rw [hrec.opId, hopId]
  refine ⟨op, hop, hopId.trans hid, hrec, ?_⟩
  rcases hrec.pages with hsystem | ⟨pages, hpages, hpaths, hall⟩
  · exact absurd hsystem hactor
  · obtain rfl : plan.pages = pages := by simpa [hpre] using hpages
    refine ⟨hpaths, ?_⟩
    intro page hpage
    obtain ⟨hsafe, hcontent⟩ := hall page hpage
    exact ⟨⟨hsafe, hmeta page hpage⟩, hcontent (hmeta page hpage)⟩

/-- In a sound book a clear revert is exact. -/
lemma Sound.exact {wiki : WikiId} {s : Book} (hs : Sound wiki s) {env : RevertEnv} {opId : ℤ}
    (revertedBy : Str)
    (hwiki : ∀ r ∈ s.world.opLog.rows, r.opId = opId → r.wikiId = wiki.val)
    (hclear : Clear wiki s env opId) : Exact s env opId revertedBy := by
  -- a revert that passes its checks is not warned, is at the op's directory, and stands
  have hpassed : ∀ plan, revertPlan env opId s.world = .ok plan →
      ∃ op ∈ s.done, op.opId = opId ∧ plan.dir = op.dir ∧ Unclobbered s op ∧
        Stands s.world.disk env op.dir plan.pages ∧
        plan.pages.map PreImagePage.path = op.paths ∧ ∀ page ∈ plan.pages, page.Checked ∧
          (isMarkerPath (op.dir ++ pathNames page.path) = false →
            page.content.map FileBytes.text =
              op.before.file? (op.dir ++ pathNames page.path)) := by
    intro plan hplan
    obtain ⟨op, hop, hopId, hrec, hpaths, hpages⟩ := hs.plan hwiki hplan
    obtain ⟨htarget, hid, hactor, hpre, -, hconflicts, ⟨wikiId, handle, hparse, hlocate, hdir⟩, -⟩ :=
      revertPlan_ok hplan
    refine ⟨op, hop, hopId, ?_⟩
    rcases hclear op hop hopId plan.target htarget hid hactor plan.pages hpre with
      hwarned | ⟨hunclobbered, hhome, hstands⟩
    · exact absurd hwarned (not_warned hrec.ts hrec.wikiId hpaths hconflicts)
    · rw [hrec.wikiId, WikiId.parse_val] at hparse
      obtain rfl := Except.ok.inj hparse
      exact ⟨hdir.trans (hhome handle hlocate), hunclobbered, hstands, hpaths, hpages⟩
  constructor
  · intro e w' herror
    rcases opRevert_error herror with hsame | ⟨plan, hplan, hrun⟩
    · rw [hsame]
      exact .refl _
    obtain ⟨op, -, -, hdir, -, hstands, -, hpages⟩ := hpassed plan hplan
    obtain ⟨d₁, hlayout, hspec⟩ :=
      restorePages_spec opId plan.dir (fun p hp => (hpages p hp).1) s.world.disk
    -- whether the disk or the database fails, the pages are those of the layout put back so far
    have hfiles : SamePages d₁ w'.disk ∧
        ¬ (putBack s.world.disk.denied plan.dir (layoutOf s.world.disk) plan.pages = plan.pages ∧
          env.dbError = none) := by
      rcases hrun with ⟨e', hfail⟩ | ⟨hok, hdb⟩
      · rcases hspec with ⟨-, hok⟩ | ⟨hsome, e'', d', hfail', hsame⟩
        · rw [hfail] at hok
          cases hok
        · rw [hfail] at hfail'
          obtain ⟨-, rfl⟩ := EStateM.Result.error.inj hfail'
          exact ⟨hsame, fun hall => hsome hall.1⟩
      · rcases hspec with ⟨-, hok'⟩ | ⟨-, e'', d', hfail', -⟩
        · rw [hok] at hok'
          obtain ⟨-, hd⟩ := EStateM.Result.ok.inj hok'
          rw [hd]
          exact ⟨.refl _, fun hall => hdb hall.2⟩
        · rw [hok] at hfail'
          cases hfail'
    rw [← hdir] at hstands
    have hback := hstands.resolve_left hfiles.2
    intro q hq
    rw [hfiles.1 q hq, ← file?_layoutOf, hlayout]
    exact hback q hq
  · intro out w' hok
    obtain ⟨plan, hplan, hrestore, -⟩ := opRevert_ok hok
    obtain ⟨op, hop, hopId, hdir, -, -, hpaths, hpages⟩ := hpassed plan hplan
    refine ⟨op, hop, hopId, ?_⟩
    rintro q ⟨hq, path, hpath, htarget⟩
    rw [hdir] at hrestore
    apply (file?_restorePages (fun p hp => (hpages p hp).1) (fun p hp => (hpages p hp).2)
      hrestore hq).1
    rw [← hpaths] at hpath
    obtain ⟨page, hpage, rfl⟩ := List.mem_map.mp hpath
    exact ⟨page, hpage, htarget⟩
  · intro out w' hok later hlater hgreater q htouched
    obtain ⟨plan, hplan, hrestore, -⟩ := opRevert_ok hok
    obtain ⟨op, hop, hopId, hdir, hunclobbered, -, hpaths, hpages⟩ := hpassed plan hplan
    rw [hdir] at hrestore
    have hfile := file?_restorePages (fun p hp => (hpages p hp).1) (fun p hp => (hpages p hp).2)
      hrestore htouched.1
    by_cases hboth : ∃ page ∈ plan.pages, op.dir ++ pathNames page.path = q
    · rw [hfile.1 hboth]
      obtain ⟨page, hpage, htarget⟩ := hboth
      have htouches : op.Touches q :=
        ⟨htouched.1, page.path, by rw [← hpaths]; exact List.mem_map_of_mem hpage, htarget⟩
      exact (hunclobbered later hlater (by omega) q htouches htouched).symm
    · push Not at hboth
      exact hfile.2 hboth

/-- In every state of a history of one wiki a revert is exact, when a newer op that changed one of
its pages again is stamped later and spells a path as it does, the wiki is where it was, and all
its pages can be put back. -/
theorem revert_exact {wiki : WikiId} {s t : Book} {trace : List (Book × Event)}
    (hrun : Run (Book.step wiki) s trace t) (hstart : s.done = [])
    (hfresh : ∀ r ∈ s.world.opLog.rows, r.wikiId = wiki.val → r.preImage = none) :
    Run.Always (fun x => ∀ env opId revertedBy,
      (∀ r ∈ x.world.opLog.rows, r.opId = opId → r.wikiId = wiki.val) →
        Clear wiki x env opId → Exact x env opId revertedBy) trace t := by
  have hsound : Sound wiki s := by
    constructor
    · simp [hstart]
    · exact fun r hr hwiki hpre => absurd (hfresh r hr hwiki) hpre
  obtain ⟨hstates, hlast⟩ := hrun.invariant (C := fun _ _ => True) hsound
    (fun hstep hx _ => sound_step hstep hx) (by simp)
  exact ⟨fun p hp env opId by' hwiki hclear => (hstates p hp).exact by' hwiki hclear,
    fun env opId by' hwiki hclear => hlast.exact by' hwiki hclear⟩

/-! ## Two upserts and a revert -/

open Sample

/-- The project with a page, and nothing done. -/
def opened : Book where
  world := world [("a.md".toList, "old".toList)]
  done := []

/-- An upsert of one page at an instant. -/
def upsertAt (now : Instant) (path text : String) : Event :=
  .upsert { env with loggedAt := now } (caller "alice".toList)
    (upsert [⟨path.toList, text.toList⟩] [] none)

/-- The environment of a revert; the hash is constant. -/
def revertEnv : RevertEnv where
  tree := Sample.env.tree
  now := 9
  revertPayloadHash _ _ := []
  dbError := none

/-- What a revert of the first op makes of a page, with what the page was before. -/
def outcome (s : Book) (path : String) : Option (Option FileBytes × Option FileBytes) :=
  match opRevert revertEnv 1 "alice".toList s.world with
  | .ok _ w => some (s.world.disk.file? (projectDir ++ [path.toList]),
    w.disk.file? (projectDir ++ [path.toList]))
  | .error _ _ => none

/-- What the book tells of an op. -/
def Done.entry (op : Done) : ℤ × HostPath × List Str := (op.opId, op.dir, op.paths)

lemma outcome_eq_some {s : Book} {path : String} {before after : Option FileBytes}
    (h : outcome s path = some (before, after)) :
    ∃ out w, opRevert revertEnv 1 "alice".toList s.world = .ok out w ∧
      s.world.disk.file? (projectDir ++ [path.toList]) = before ∧
      w.disk.file? (projectDir ++ [path.toList]) = after := by
  unfold outcome at h
  split at h
  · next out w hok =>
    obtain ⟨hbefore, hafter⟩ := Prod.mk.inj (Option.some.inj h)
    exact ⟨out, w, hok, hbefore, hafter⟩
  · cases h

/-- The page as it was at first. -/
def firstPage : PreImagePage := ⟨"a.md".toList, some "old".toList⟩

/-- The pages the first op would be reverted to, by its row. -/
def firstPages (s : Book) : List (Option (List PreImagePage)) :=
  (s.world.opLog.rows.filter fun r => r.opId = 1).map fun r =>
    r.preImage.bind Except.toOption

/-- The first page can be put back, and the project is where it was. -/
def standsFirst (s : Book) : Bool :=
  (match restorePages 1 projectDir [firstPage] s.world.disk with
    | .ok _ _ => true
    | .error _ _ => false) &&
  match revertEnv.tree.locate s.world.disk project.wikiId with
    | .ok handle => handle.absDir = projectDir
    | .error _ => false

lemma standsFirst_iff {s : Book} (h : standsFirst s = true) :
    Stands s.world.disk revertEnv projectDir [firstPage] ∧ ∀ handle,
      revertEnv.tree.locate s.world.disk project.wikiId = .ok handle →
        handle.absDir = projectDir := by
  unfold standsFirst at h
  obtain ⟨hrestored, hhome⟩ := Bool.and_eq_true_iff.mp h
  constructor
  · left
    have hchecked : ∀ page ∈ [firstPage], page.Checked := by
      unfold PreImagePage.Checked
      decide +kernel
    obtain ⟨d₁, -, ⟨hall, -⟩ | ⟨-, e, d', herror, -⟩⟩ :=
      restorePages_spec 1 projectDir hchecked s.world.disk
    · exact ⟨hall, rfl⟩
    · rw [herror] at hrestored
      cases hrestored
  · intro handle hlocate
    rw [hlocate] at hhome
    simpa using hhome

/-- With another page written later the first op is reverted, and the other page stays. -/
theorem revert_exact_beside :
    ∃ trace t, Run (Book.step project.wikiId) opened trace t ∧
      Exact t revertEnv 1 "alice".toList ∧
      outcome t "a.md" = some (some (.text "one".toList), some (.text "old".toList)) ∧
      outcome t "b.md" = some (some (.text "two".toList), some (.text "two".toList)) := by
  have hbeside : ([upsertAt 1 "a.md" "one", upsertAt 2 "b.md" "two"].foldlM
      (Book.step project.wikiId) opened).any (fun t => t.done.map Done.entry =
          [(1, projectDir, ["a.md".toList]), (2, projectDir, ["b.md".toList])] ∧
        t.world.opLog.rows.map OpLogRow.wikiId = [project.wikiId.val, project.wikiId.val] ∧
        firstPages t = [some [firstPage]] ∧ standsFirst t = true ∧
        outcome t "a.md" = some (some (.text "one".toList), some (.text "old".toList)) ∧
        outcome t "b.md" = some (some (.text "two".toList), some (.text "two".toList))) =
      true := by
    decide +kernel
  obtain ⟨trace, t, hrun, htest⟩ := Run.exists_of_any hbeside
  obtain ⟨hdone, hwikis, hpages, hstands, ha, hb⟩ := of_decide_eq_true htest
  obtain ⟨hcan, hhome⟩ := standsFirst_iff hstands
  have hentries : ∀ op ∈ t.done, op.entry = (1, projectDir, ["a.md".toList]) ∨
      op.entry = (2, projectDir, ["b.md".toList]) := by
    intro op hop
    have := List.mem_map_of_mem (f := Done.entry) hop
    rw [hdone] at this
    simpa using this
  refine ⟨trace, t, hrun, ?_, ha, hb⟩
  apply (revert_exact hrun rfl (by simp [opened, world])).2
  · intro r hr _
    have := List.mem_map_of_mem (f := OpLogRow.wikiId) hr
    rw [hwikis] at this
    simpa using this
  · intro op hop hid row hrow hrowId _ pages hpre
    right
    obtain ⟨hopDir, hopPaths⟩ : op.dir = projectDir ∧ op.paths = ["a.md".toList] := by
      rcases hentries op hop with hentry | hentry
      · exact Prod.mk.inj (Prod.mk.inj hentry).2
      · have := (Prod.mk.inj hentry).1
        omega
    obtain rfl : pages = [firstPage] := by
      have hmem : some pages ∈ firstPages t := by
        apply List.mem_map.mpr
        exact ⟨row, by simp [hrow, hrowId], by simp [hpre, Except.toOption]⟩
      rw [hpages] at hmem
      simpa using hmem
    rw [hopDir]
    refine ⟨?_, hhome, hcan⟩
    rintro later hlater hnewer q ⟨-, path, hpath, rfl⟩ ⟨-, path', hpath', htarget⟩
    rcases hentries later hlater with hentry | hentry
    · have := (Prod.mk.inj hentry).1
      omega
    · obtain ⟨hlaterDir, hlaterPaths⟩ := Prod.mk.inj (Prod.mk.inj hentry).2
      rw [hopPaths, List.mem_singleton] at hpath
      rw [hlaterPaths, List.mem_singleton] at hpath'
      rw [hopDir, hlaterDir, hpath, hpath'] at htarget
      exact absurd htarget (by decide +kernel)

/-- The two upserts of one page have the same stamp, and the revert of the first takes the second
back too. -/
theorem revert_clobbers :
    ∃ trace t, Run (Book.step project.wikiId) opened trace t ∧
      (∀ r ∈ t.world.opLog.rows, r.opId = 1 → r.wikiId = project.wikiId.val) ∧
      ¬ Exact t revertEnv 1 "alice".toList := by
  have hclobbered : ([upsertAt 0 "a.md" "one", upsertAt 0 "a.md" "two"].foldlM
      (Book.step project.wikiId) opened).any (fun t => t.done.map Done.entry =
          [(1, projectDir, ["a.md".toList]), (2, projectDir, ["a.md".toList])] ∧
        outcome t "a.md" = some (some (.text "two".toList), some (.text "old".toList)) ∧
        t.world.opLog.rows.map OpLogRow.wikiId = [project.wikiId.val, project.wikiId.val]) =
      true := by
    decide +kernel
  obtain ⟨trace, t, hrun, htest⟩ := Run.exists_of_any hclobbered
  obtain ⟨hdone, houtcome, hwikis⟩ := of_decide_eq_true htest
  refine ⟨trace, t, hrun, ?_, ?_⟩
  · intro r hr _
    have := List.mem_map_of_mem (f := OpLogRow.wikiId) hr
    rw [hwikis] at this
    simpa using this
  · intro hexact
    obtain ⟨out, w, hok, hbefore, hafter⟩ := outcome_eq_some houtcome
    obtain ⟨later, hlater, hentry⟩ : ∃ later ∈ t.done,
        later.entry = (2, projectDir, ["a.md".toList]) := by
      apply List.mem_map.mp
      rw [hdone]
      simp
    obtain ⟨hid, hplace⟩ := Prod.mk.inj hentry
    obtain ⟨hdir, hpaths⟩ := Prod.mk.inj hplace
    have hsame := hexact.kept out w hok later hlater (by rw [hid]; decide)
      (projectDir ++ ["a.md".toList])
      ⟨by decide +kernel, "a.md".toList, by rw [hpaths]; simp, by rw [hdir]; decide +kernel⟩
    rw [hbefore, hafter] at hsame
    exact absurd hsame (by decide +kernel)

end Reverts

end Mwe
