import MweCore.Enrollment
import MweCore.Lib.Effect
import MweCore.Wiki.Tree
import MweCore.WikiAdmin.Leases

/-!
# Pushing to a smart wiki

`push` creates a wiki or changes the pages of one.  It works on a `World`: the disk, the op log,
the briefing items, the leases and the groups.  A push that fails keeps what it has done to the
disk; the two tables are written in one transaction at its end, so it has done nothing to them.

The calls a push makes are whole: `PushEnv` holds what it takes from elsewhere, the instants it
reads the clock at, the hash of a request and the warnings about the shape of its pages.
-/

namespace Mwe

open Str

/-! ## Requests and answers -/

/-- Push mode requested by the consumer. -/
inductive PushMode where
  | create | upsert
  deriving DecidableEq, Repr

/-- The `op_kind` of the row a push leaves. -/
def PushMode.opLogKind : PushMode → Str
  | .create => "push_create".toList
  | .upsert => "push_upsert".toList

/-- The `op_mode` of the row a push leaves. -/
def PushMode.wire : PushMode → Str
  | .create => "create".toList
  | .upsert => "upsert".toList

/-- One page of a push. -/
structure PushPage where
  path : Str
  content : Str
  deriving DecidableEq

/-- All inputs of a push. -/
structure PushRequest where
  mode : PushMode
  wikiId : Option WikiId := none
  parentWikiId : Option WikiId := none
  slug : Option Str := none
  title : Option Str := none
  wikiType : Option Str := none
  smart : Bool := false
  projectId : Option Str := none
  description : Option Str := none
  pages : List PushPage := []
  deletes : List Str := []
  markProcessed : List Str := []
  expectedOpLogHead : Option ℤ := none
  deriving DecidableEq

/-- How many pages a push created, updated and deleted. -/
structure PushOpsApplied where
  created : ℕ := 0
  updated : ℕ := 0
  deleted : ℕ := 0
  deriving DecidableEq

/-- All the pages a push affected. -/
def PushOpsApplied.total (ops : PushOpsApplied) : ℕ := ops.created + ops.updated + ops.deleted

/-- Return value of a push. -/
structure PushResponse where
  wikiId : WikiId
  opsApplied : PushOpsApplied
  opLogId : ℤ
  warnings : List Str
  markedProcessed : List Str
  authoredRefs : List Str
  deriving DecidableEq

/-- Errors of the push tools. -/
inductive AdminError where
  | requiresSmart
  | wikiOwnedByOtherUser (wikiId : WikiId) (owner callerOwner : Str)
  | wikiNotSmart (wikiType : Str)
  | agentLabelReserved (slug : Str)
  | ambiguousOwner (wikiId : WikiId) (aclDefault : Str)
  | wikiTypeRequiresParent (wikiType expectedParent : Str)
  | notFound (wikiId : WikiId)
  | invalidInput (detail : Str)
  | wikiLockedByLease (wikiId : WikiId) (heldByConsumerId : Option Str) (heldBySenderId : Str)
      (expiresAt : Instant)
  | unknownBriefingItemId (biId : Str) (wikiId : WikiId)
  | tooManyBriefingItems (received cap : ℕ)
  | conflictingOpLogHead (wikiId : WikiId) (expected actual : ℤ)
  | wiki (e : WikiError)
  | slugParse (e : SlugParseError)
  | io (e : Fs.Errno)
  deriving DecidableEq

/-! ## The tables -/

/-- What wrote an op-log row; `dashboard` is on old rows only. -/
inductive ActorKind where
  | smartConsumer | dashboard | system
  deriving DecidableEq, Repr

/-- A page as it was before a write; no content when there was no page. -/
structure PreImagePage where
  path : Str
  content : Option Str
  deriving DecidableEq

/-- A row of `wiki_admin_op_log`.  The pre-image is what its JSON reads as: pages, or an error when
it is not of that shape. -/
structure OpLogRow where
  opId : ℤ
  wikiId : Str
  senderId : Str
  consumerId : Option Str
  actorKind : ActorKind
  opKind : Str
  opMode : Option Str
  payloadHash : Str
  pagesAffected : ℕ
  preImage : Option (Except Str (List PreImagePage))
  ts : Instant

/-- The table `wiki_admin_op_log`: ids go up and are never used again. -/
structure OpLog where
  rows : List OpLogRow
  lastId : ℤ
  bounded : ∀ r ∈ rows, r.opId ≤ lastId
  nodup : (rows.map OpLogRow.opId).Nodup

lemma OpLog.bounded_nil : ∀ r ∈ ([] : List OpLogRow), r.opId ≤ 0 := by simp

/-- Insert a row; its id is the next one. -/
def OpLog.insert (log : OpLog) (row : ℤ → OpLogRow) (hrow : ∀ id, (row id).opId = id) : OpLog where
  rows := log.rows ++ [row (log.lastId + 1)]
  lastId := log.lastId + 1
  bounded := by
    intro r hr
    rcases List.mem_append.mp hr with hr | hr
    · have := log.bounded r hr
      omega
    · rw [List.mem_singleton.mp hr, hrow]
  nodup := by
    rw [List.map_append, List.map_singleton, hrow, List.nodup_append_comm]
    refine List.nodup_cons.mpr ⟨?_, log.nodup⟩
    intro hmem
    obtain ⟨r, hr, heq⟩ := List.mem_map.mp hmem
    have := log.bounded r hr
    omega

/-- A row of `wiki_briefing_items`. -/
structure BriefingItem where
  id : ℤ
  wikiId : Str
  processedAt : Option Instant := none
  deriving DecidableEq

/-- The table `wiki_briefing_items`. -/
abbrev BriefingTable := Sql.Table BriefingItem.id

/-- Everything a push reads and writes. -/
structure World where
  disk : HostDisk
  opLog : OpLog
  briefing : BriefingTable
  leases : Leases.LeaseTable
  groups : List EnrollmentGroup

/-- What a push takes from elsewhere. -/
structure PushEnv where
  tree : WikiTree
  /-- When the lease is looked for, the meta file stamped, the items marked, the row written. -/
  leaseAt : Instant
  createdAt : Instant
  markedAt : Instant
  loggedAt : Instant
  /-- The text of an instant. -/
  rfc3339 : Instant → Str
  payloadHash : PushRequest → Str
  shapeWarnings : List PushPage → Bool → List Str

/-! ## Who may push -/

/-- Cap on the briefing items one push may mark. -/
def markProcessedCapPerPush : ℕ := 50

/-- A consumer may claim the label `agent` on its own operational wiki only. -/
def guardAgentLabel (tree : WikiTree) (d : HostDisk) (caller : AdminCaller) (req : PushRequest) :
    Except AdminError Unit :=
  if req.wikiType ≠ some agentWikiType then .ok ()
  else
    let slug : Str :=
      match req.mode with
      | .create => req.slug.getD []
      | .upsert =>
        match req.wikiId with
        | none => []
        | some id =>
          match tree.locate d id with
          | .ok h => h.wikiMeta.slug.val
          | .error _ => []
    if caller.consumerId = some slug then .ok () else .error (.agentLabelReserved slug)

/-- Only the holder of an active lease may upsert. -/
def guardLease (w : World) (now : Instant) (caller : AdminCaller) (req : PushRequest) :
    Except AdminError Unit :=
  match req.mode, req.wikiId with
  | .upsert, some target =>
    match Leases.activeLeaseFor w.leases target now with
    | none => .ok ()
    | some lease =>
      if lease.heldBy caller then .ok ()
      else .error (.wikiLockedByLease target lease.consumerId lease.senderId lease.expiresAt)
  | _, _ => .ok ()

/-- What `push` checks before it branches on the mode. -/
def pushChecks (env : PushEnv) (caller : AdminCaller) (req : PushRequest) (w : World) :
    Except AdminError Unit := do
  Effect.require (caller.consumerClass.isSmart = true) .requiresSmart
  guardAgentLabel env.tree w.disk caller req
  Effect.require (req.markProcessed.length ≤ markProcessedCapPerPush)
    (.tooManyBriefingItems req.markProcessed.length markProcessedCapPerPush)
  guardLease w env.leaseAt caller req

/-- The single user a wiki belongs to; `none` for a topic wiki. -/
def resolveOwnerUser (tree : WikiTree) (d : HostDisk) (handle : WikiHandle) :
    Except AdminError (Option Str) :=
  match tree.resolveScopePrincipal d handle.wikiMeta with
  | .error e => .error (.wiki e)
  | .ok (some (.user id)) => .ok (some id)
  | .ok (some (.group g)) =>
    .error (.ambiguousOwner handle.wikiMeta.wikiId (Principal.group g).display)
  | .ok none => .ok none

/-- The wiki must be smart, and the caller its owner or a member of the group that owns it. -/
def enforceAdminAuth (tree : WikiTree) (w : World) (handle : WikiHandle) (caller : AdminCaller) :
    Except AdminError Unit :=
  if !handle.wikiMeta.smart then .error (.wikiNotSmart handle.wikiMeta.wikiType)
  else
    match resolveOwnerUser tree w.disk handle with
    | .ok (some owner) =>
      if owner ≠ caller.senderId then
        .error (.wikiOwnedByOtherUser handle.wikiMeta.wikiId owner caller.senderId)
      else .ok ()
    | .ok none => .error (.wikiNotSmart handle.wikiMeta.wikiType)
    | .error (.ambiguousOwner wikiId aclDefault) =>
      let group := (stripPrefix "group:".toList aclDefault).filter (· != "global".toList)
      let allowed :=
        match group with
        | some g => (groupsFor w.groups caller.senderId).any (· == g)
        | none => false
      if allowed then .ok ()
      else .error (.wikiOwnedByOtherUser wikiId aclDefault caller.senderId)
    | .error e => .error e

/-- `op_kind LIKE 'push\_%' ESCAPE '\'`; `LIKE` does not tell the case of ASCII letters apart. -/
def isPushKind (kind : Str) : Bool := "push_".toList.isPrefixOf (toAsciiLowercase kind)

/-- The newest write op of a wiki. -/
def latestWriteHead (log : OpLog) (wikiId : WikiId) : Option ℤ :=
  ((log.rows.filter fun r => r.wikiId == wikiId.val && isPushKind r.opKind).map
    OpLogRow.opId).max?

/-- The optimistic-concurrency gate: no write op newer than the caller expects. -/
def checkOpLogHead (log : OpLog) (wikiId : WikiId) (expected : Option ℤ) : Except AdminError Unit :=
  match expected, latestWriteHead log wikiId with
  | some expected, some actual =>
    if expected < actual then .error (.conflictingOpLogHead wikiId expected actual) else .ok ()
  | _, _ => .ok ()

/-! ## The shape of a request -/

/-- The checks on one page; `seen` are the paths before it by their lower-case form. -/
def validatePushPage (seen : List (Str × Str)) (page : PushPage) : Except AdminError Unit :=
  if !isSafePagePath page.path then
    .error (.invalidInput ("unsafe page path: ".toList ++ page.path))
  else if page.path = metaFilename then
    .error (.invalidInput (metaFilename ++ " cannot be written via wiki_admin_push".toList))
  else
    match pagePathCaseHazard page.path with
    | some hazard => .error (.invalidInput ("page ".toList ++ page.path ++ ": ".toList ++ hazard))
    | none =>
      match seen.lookup (toAsciiLowercase page.path) with
      | some prev =>
        .error (.invalidInput (if prev = page.path then
          "duplicate page path in push: ".toList ++ page.path
        else
          "pages ".toList ++ prev ++ " and ".toList ++ page.path ++ (" differ only by case — a " ++
            "case-insensitive mirror treats them as the same file").toList))
      | none => .ok ()

/-- Check the pages from `seen` on. -/
def validatePushPagesFrom (seen : List (Str × Str)) : List PushPage → Except AdminError Unit
  | [] => .ok ()
  | page :: pages => do
    validatePushPage seen page
    validatePushPagesFrom ((toAsciiLowercase page.path, page.path) :: seen) pages

/-- Request-shape validation of the pages of a push. -/
def validatePushPages (pages : List PushPage) : Except AdminError Unit :=
  validatePushPagesFrom [] pages

/-- The value of a run of digits. -/
def digitsValue (ds : Str) : ℕ := ds.foldl (fun n c => 10 * n + (c.toNat - '0'.toNat)) 0

/-- Parse a signed 64-bit integer. -/
def parseI64 (s : Str) : Option ℤ :=
  let (negative, ds) : Bool × Str :=
    match s with
    | '-' :: ds => (true, ds)
    | '+' :: ds => (false, ds)
    | ds => (false, ds)
  if ds.isEmpty || !ds.all isAsciiDigit then none
  else
    let n : ℤ := if negative then -(digitsValue ds : ℤ) else digitsValue ds
    if -2 ^ 63 ≤ n ∧ n < 2 ^ 63 then some n else none

/-- Parse a briefing-item id: `bi_<N>` or `<N>`. -/
def parseBiId (raw : Str) : Option ℤ :=
  (parseI64 ((stripPrefix "bi_".toList raw).getD raw)).filter (1 ≤ ·)

/-- The text of a briefing-item id. -/
def biId (id : ℤ) : Str := "bi_".toList ++ (toString id).toList

/-- Parse the ids to mark: sorted, each once. -/
def parseMarkProcessed (wikiId : WikiId) (raw : List Str) : Except AdminError (List ℤ) := do
  Effect.require (raw.length ≤ markProcessedCapPerPush)
    (.tooManyBriefingItems raw.length markProcessedCapPerPush)
  let ids ← raw.mapM fun s => Effect.present (parseBiId s) (.unknownBriefingItemId s wikiId)
  pure (ids.dedup.insertionSort (· ≤ ·))

/-- Every id must be an item of the wiki. -/
def validateMarks (items : BriefingTable) (wikiId : WikiId) (ids : List ℤ) :
    Except AdminError (List Str) :=
  ids.mapM fun id =>
    match items.get? id with
    | none => .error (.unknownBriefingItemId (biId id) wikiId)
    | some item =>
      if item.wikiId ≠ wikiId.val then .error (.unknownBriefingItemId (biId id) wikiId)
      else .ok (biId id)

lemma BriefingItem.id_process (now : Instant) (item : BriefingItem) :
    BriefingItem.id { item with processedAt := some now } = item.id := rfl

/-- `UPDATE wiki_briefing_items SET processed_at = ? WHERE id IN (…) AND wiki_id = ?`. -/
def markItems (items : BriefingTable) (wikiId : WikiId) (ids : List ℤ) (now : Instant) :
    BriefingTable :=
  items.update (fun item => decide (item.id ∈ ids) && item.wikiId == wikiId.val)
    (fun item => { item with processedAt := some now }) (BriefingItem.id_process now)

/-! ## The effects -/

/-- Work on the disk of the world. -/
def onDisk {ε α : Type} (x : EStateM ε HostDisk α) : EStateM ε World α := fun w =>
  match x w.disk with
  | .ok a d => .ok a { w with disk := d }
  | .error e d => .error e { w with disk := d }

/-- A failed write of the wiki module, as the push reports it. -/
def atomicWriteAdmin (dir : HostPath) (rel : Str) (content : Str) :
    EStateM AdminError HostDisk Unit :=
  EStateM.adaptExcept (fun e => .wiki (.io e)) (atomicWrite dir rel (.text content))

/-- The scope a description asks for: trimmed, and none when nothing is left. -/
def wantedScope (requested : Str) : Option Str :=
  if (trim requested).isEmpty then none else some (trim requested)

/-- The meta file again, with another scope. -/
def restamped (tree : WikiTree) (handle : WikiHandle) (wanted : Option Str) (d : HostDisk) :
    Except AdminError Str := do
  let path := handle.absDir ++ [metaFilename]
  let raw ← (readToString d path).mapError AdminError.io
  let (wikiMeta, body) ← (WikiMeta.parse tree.serde path raw).mapError AdminError.wiki
  ({ wikiMeta with scope := wanted }.render tree.serde body).mapError fun e =>
    .invalidInput ("re-render ".toList ++ metaFilename ++ ": ".toList ++ e)

/-- Stamp the description of a wiki into the scope of its meta file. -/
def stampDescription (tree : WikiTree) (handle : WikiHandle) (requested : Option Str) :
    EStateM AdminError HostDisk Unit :=
  match requested with
  | none => pure ()
  | some requested =>
    if handle.wikiMeta.scope = wantedScope requested then pure ()
    else do
      let doc ← Effect.check (restamped tree handle (wantedScope requested))
      atomicWriteAdmin handle.absDir metaFilename doc

/-- One page of the pre-image: its content on disk, none when there is no file. -/
def readPreImageEntry (d : HostDisk) (dir : HostPath) (rel : Str) :
    Except AdminError PreImagePage :=
  match (follow d dir rel).bind (readToString d) with
  | .ok s => .ok ⟨rel, some s⟩
  | .error .notFound => .ok ⟨rel, none⟩
  | .error e => .error (.io e)

/-- The paths a request touches, each once. -/
def touchedPaths (req : PushRequest) : List Str :=
  (req.pages.map PushPage.path ++ req.deletes).eraseDups

/-- The content of every page a push is about to touch. -/
def snapshotPreImage (d : HostDisk) (dir : HostPath) (req : PushRequest) :
    Except AdminError (List PreImagePage) :=
  (touchedPaths req).mapM (readPreImageEntry d dir)

/-- The checks of `write_pages` on one page, against the disk as it is: whether the page exists,
unless it must not. -/
def admitPage (allowOverwrite : Bool) (dir : HostPath) (path : Str) (d : HostDisk) :
    Except AdminError Bool :=
  let existed := pageExistsByteExact d dir path
  if existed && !allowOverwrite then
    .error (.invalidInput ("page ".toList ++ path ++
      " already exists (create mode forbids overwrite)".toList))
  else
    match if existed then none else pageCaseConflict d dir path with
    | some conflict => .error (.invalidInput ("page ".toList ++ path ++ ": ".toList ++ conflict))
    | none => .ok existed

/-- Write one page; whether it was there before. -/
def writePage (allowOverwrite : Bool) (dir : HostPath) (page : PushPage) :
    EStateM AdminError HostDisk Bool := do
  let existed ← Effect.check (admitPage allowOverwrite dir page.path)
  atomicWriteAdmin dir page.path page.content
  pure existed

/-- Write the pages one after the other. -/
def writePages (allowOverwrite : Bool) (dir : HostPath) :
    PushOpsApplied → List PushPage → EStateM AdminError HostDisk PushOpsApplied
  | ops, [] => pure ops
  | ops, page :: pages => do
    let existed ← writePage allowOverwrite dir page
    writePages allowOverwrite dir
      (if existed then { ops with updated := ops.updated + 1 }
        else { ops with created := ops.created + 1 }) pages

/-- The checks on one delete, against the disk as it is. -/
def admitDelete (dir : HostPath) (rel : Str) (d : HostDisk) : Except AdminError Unit :=
  if !isSafePagePath rel then .error (.invalidInput ("unsafe delete path: ".toList ++ rel))
  else if rel = metaFilename then
    .error (.invalidInput (metaFilename ++ " cannot be deleted via wiki_admin_push".toList))
  else if !pageExistsByteExact d dir rel then
    .error (.invalidInput ("delete target ".toList ++ rel ++ " does not exist".toList))
  else .ok ()

/-- Remove a file by its path. -/
def removeFileAt (dir : HostPath) (rel : Str) : EStateM Fs.Errno HostDisk Unit :=
  change fun d => (follow d dir rel).bind fun p => d.removeFile p

/-- Delete one page. -/
def deletePage (dir : HostPath) (rel : Str) : EStateM AdminError HostDisk Unit := do
  Effect.check (admitDelete dir rel)
  EStateM.adaptExcept AdminError.io (removeFileAt dir rel)

/-- Delete the pages one after the other. -/
def deletePages (dir : HostPath) :
    PushOpsApplied → List Str → EStateM AdminError HostDisk PushOpsApplied
  | ops, [] => pure ops
  | ops, rel :: deletes => do
    deletePage dir rel
    deletePages dir { ops with deleted := ops.deleted + 1 } deletes

/-- The row a push leaves. -/
def pushRow (env : PushEnv) (caller : AdminCaller) (req : PushRequest) (wikiId : WikiId)
    (ops : PushOpsApplied) (preImage : Option (List PreImagePage)) (opId : ℤ) : OpLogRow where
  opId := opId
  wikiId := wikiId.val
  senderId := caller.senderId
  consumerId := caller.consumerId
  actorKind := .smartConsumer
  opKind := req.mode.opLogKind
  opMode := some req.mode.wire
  payloadHash := env.payloadHash req
  pagesAffected := min ops.total (2 ^ 63 - 1)
  preImage := preImage.map .ok
  ts := env.loggedAt

lemma opId_pushRow (env : PushEnv) (caller : AdminCaller) (req : PushRequest) (wikiId : WikiId)
    (ops : PushOpsApplied) (preImage : Option (List PreImagePage)) (id : ℤ) :
    (pushRow env caller req wikiId ops preImage id).opId = id := rfl

/-- Commit the transaction: the op-log row and the marked items. -/
def commitPush (env : PushEnv) (caller : AdminCaller) (req : PushRequest) (wikiId : WikiId)
    (markIds : List ℤ) (ops : PushOpsApplied) (preImage : Option (List PreImagePage)) :
    EStateM AdminError World ℤ := fun w =>
  .ok (w.opLog.lastId + 1)
    { w with
      opLog := w.opLog.insert (pushRow env caller req wikiId ops preImage)
        (opId_pushRow env caller req wikiId ops preImage)
      briefing := markItems w.briefing wikiId markIds env.markedAt }

/-- A link to each page a push wrote. -/
def authoredRefsFor (wikiId : WikiId) (pages : List PushPage) : List Str :=
  pages.map fun p =>
    let path := posixPath p.path
    "[[".toList ++ wikiId.val ++ "/".toList ++
      (stripSuffix ".md".toList path).getD path ++ "]]".toList

/-! ## Upsert -/

/-- The wiki an upsert names; it must not pass the fields of a create. -/
def upsertTarget (req : PushRequest) : Except AdminError WikiId :=
  match req.wikiId with
  | none => .error (.invalidInput "upsert requires wiki_id".toList)
  | some wikiId =>
    if req.parentWikiId.isSome || req.slug.isSome || req.title.isSome || req.wikiType.isSome then
      .error (.invalidInput ("upsert must not pass create-only fields " ++
        "(parent_wiki_id, slug, title, wiki_type)").toList)
    else .ok wikiId

/-- Locate the target of a push. -/
def located (tree : WikiTree) (d : HostDisk) (wikiId : WikiId) : Except AdminError WikiHandle :=
  (tree.locate d wikiId).mapError fun _ => .notFound wikiId

/-- What an upsert has worked out once all its checks have passed. -/
structure UpsertPlan where
  markIds : List ℤ
  preImage : List PreImagePage
  markedProcessed : List Str

/-- The gates of an upsert: the caller, then the op-log head. -/
def upsertGates (env : PushEnv) (caller : AdminCaller) (req : PushRequest) (handle : WikiHandle)
    (wikiId : WikiId) (w : World) : Except AdminError Unit := do
  enforceAdminAuth env.tree w handle caller
  checkOpLogHead w.opLog wikiId req.expectedOpLogHead

/-- What an upsert validates and reads behind its gates and before its first write. -/
def upsertPlan (req : PushRequest) (handle : WikiHandle) (wikiId : WikiId) (w : World) :
    Except AdminError UpsertPlan := do
  validatePushPages req.pages
  let markIds ← parseMarkProcessed wikiId req.markProcessed
  let preImage ← snapshotPreImage w.disk handle.absDir req
  let markedProcessed ← validateMarks w.briefing wikiId markIds
  pure { markIds, preImage, markedProcessed }

/-- Change the pages of a smart wiki. -/
def pushUpsert (env : PushEnv) (caller : AdminCaller) (req : PushRequest) :
    EStateM AdminError World PushResponse := do
  let wikiId ← Effect.check fun _ => upsertTarget req
  let handle ← Effect.check fun w => located env.tree w.disk wikiId
  onDisk (stampDescription env.tree handle req.description)
  Effect.check (upsertGates env caller req handle wikiId)
  let plan ← Effect.check (upsertPlan req handle wikiId)
  let written ← onDisk (writePages true handle.absDir {} req.pages)
  let ops ← onDisk (deletePages handle.absDir written req.deletes)
  let opLogId ← commitPush env caller req wikiId plan.markIds ops (some plan.preImage)
  pure { wikiId, opsApplied := ops, opLogId
         warnings := env.shapeWarnings req.pages handle.wikiMeta.smart
         markedProcessed := plan.markedProcessed
         authoredRefs := authoredRefsFor wikiId req.pages }

/-! ## Create -/

/-- What a create has worked out once all its checks have passed. -/
structure CreatePlan where
  wikiId : WikiId
  dir : HostPath
  metaDoc : Str
  markIds : List ℤ
  markedProcessed : List Str

/-- The fields a create must pass: slug, title and type, and no wiki id. -/
def createFields (req : PushRequest) : Except AdminError (Str × Str × Str) := do
  let slug ← Effect.present req.slug (.invalidInput
    ("create makes a NEW WIKI and requires `slug` (its id under the parent); to add or edit a " ++
      "PAGE in an existing wiki use mode=upsert with that wiki's wiki_id").toList)
  let title ← Effect.present (req.title.map trim) (.invalidInput
    ("create (new wiki) requires `title` — the wiki's display name, e.g. \"LNPrint — " ++
      "engineering wiki\"").toList)
  Effect.require (title ≠ []) (.invalidInput "title must not be blank".toList)
  let wikiType ← Effect.present req.wikiType (.invalidInput
    ("create (new wiki) requires `wiki_type` — a free-form label (\"project\" is the usual one); " ++
      "smart-ness comes from the separate `smart: true` flag, not from this string").toList)
  Effect.require (req.wikiId = none) (.invalidInput
    ("create must not pass wiki_id (it is derived from the slug, and for a smart wiki from its " ++
      "parent and the slug)").toList)
  Effect.require (req.smart = true) (.wikiNotSmart wikiType)
  pure (slug, title, wikiType)

/-- The meta file of a new wiki. -/
def createMeta (env : PushEnv) (req : PushRequest) (wikiId parentId : WikiId) (slug : WikiSlug)
    (title wikiType : Str) : WikiMeta where
  wikiId := wikiId
  wikiType := wikiType
  parentWikiId := some parentId
  slug := slug
  title := title
  scope := req.description.bind wantedScope
  smart := true
  created := some (env.rfc3339 env.createdAt)
  updated := some (env.rfc3339 env.createdAt)
  extra := (req.projectId.map fun pid => (Yaml.string "project_id".toList, Yaml.string pid)).toList

/-- Everything a create checks and works out before its first write. -/
def createPlan (env : PushEnv) (caller : AdminCaller) (req : PushRequest) (w : World) :
    Except AdminError CreatePlan := do
  let (slugS, title, wikiType) ← createFields req
  let parentId ← Effect.present req.parentWikiId
    (.wikiTypeRequiresParent wikiType caller.senderId)
  let slug ← (WikiSlug.parse slugS).mapError AdminError.slugParse
  let parent ← located env.tree w.disk parentId
  let wikiId := WikiId.childOf parentId slug
  Effect.require ((env.tree.locate w.disk wikiId).isOk = false)
    (.invalidInput ("wiki ".toList ++ wikiId.val ++ " already exists; use upsert".toList))
  Effect.require (req.deletes = [])
    (.invalidInput "create mode does not accept `deletes` (the wiki is new)".toList)
  validatePushPages req.pages
  let markIds ← parseMarkProcessed wikiId req.markProcessed
  let dir := parent.absDir ++ [slugS]
  let metaDoc ← ((createMeta env req wikiId parentId slug title wikiType).render env.tree.serde
    []).mapError fun e => AdminError.wiki (.invalidFrontmatter (dir ++ [metaFilename])
      ("rendering canonical meta: ".toList ++ e))
  let markedProcessed ← validateMarks w.briefing wikiId markIds
  pure { wikiId, dir, metaDoc, markIds, markedProcessed }

/-- Create a smart wiki below its parent. -/
def pushCreate (env : PushEnv) (caller : AdminCaller) (req : PushRequest) :
    EStateM AdminError World PushResponse := do
  let plan ← Effect.check (createPlan env caller req)
  onDisk (atomicWriteAdmin plan.dir metaFilename plan.metaDoc)
  let ops ← onDisk (writePages false plan.dir {} req.pages)
  let opLogId ← commitPush env caller req plan.wikiId plan.markIds ops none
  pure { wikiId := plan.wikiId, opsApplied := ops, opLogId
         warnings := env.shapeWarnings req.pages true
         markedProcessed := plan.markedProcessed
         authoredRefs := authoredRefsFor plan.wikiId req.pages }

/-- Run a push. -/
def push (env : PushEnv) (caller : AdminCaller) (req : PushRequest) :
    EStateM AdminError World PushResponse := do
  Effect.check (pushChecks env caller req)
  match req.mode with
  | .create => pushCreate env caller req
  | .upsert => pushUpsert env caller req

/-! ## A small tree -/

namespace Sample

/-- Alice's own wiki. -/
def alice : WikiMeta where
  wikiId := ⟨"alice".toList, checkSlug_alice⟩
  wikiType := identityWikiType
  parentWikiId := none
  slug := ⟨"alice".toList, checkSlug_alice⟩
  title := "Alice".toList

/-- A project of hers. -/
def project : WikiMeta where
  wikiId := ⟨"alice-proj".toList, checkSlug_aliceProj⟩
  wikiType := "project".toList
  parentWikiId := some alice.wikiId
  slug := ⟨"proj".toList, by decide⟩
  title := "Project".toList
  smart := true

/-- The project with a description. -/
def described : WikiMeta := { project with scope := some "mine".toList }

/-- The YAML library, as far as these meta files need it. -/
def serde : Serde := Serde.ofMetas [alice, project, described]

lemma serde_lawful : serde.Lawful :=
  Serde.ofDocs_lawful (by decide +kernel) (by decide +kernel)

/-- Where Alice's wiki and her project are. -/
def aliceDir : HostPath := ["srv".toList, "wikis".toList, "alice".toList]
def projectDir : HostPath := aliceDir ++ ["proj".toList]

/-- What a meta file's text is. -/
def metaText (m : WikiMeta) : Str :=
  "---\n".toList ++ Serde.plainText m.toMapping ++ "\n---\n".toList

/-- The two wikis, and the pages of the project. -/
def world (pages : List (Str × Str)) : World where
  disk := diskOf ([(aliceDir ++ [metaFilename], metaText alice),
    (projectDir ++ [metaFilename], metaText project)] ++
      pages.map fun p => (projectDir ++ pathNames p.1, p.2))
  opLog := ⟨[], 0, OpLog.bounded_nil, List.nodup_nil⟩
  briefing := Sql.Table.empty _
  leases := Sql.Table.empty _
  groups := []

/-- The environment of a push; the hash and the warnings are constant. -/
def env : PushEnv where
  tree := ⟨["srv".toList], serde⟩
  leaseAt := 0
  createdAt := 0
  markedAt := 0
  loggedAt := 0
  rfc3339 _ := "1970-01-01T00:00:00+00:00".toList
  payloadHash _ := []
  shapeWarnings _ _ := []

/-- A smart consumer of a user. -/
def caller (name : Str) : AdminCaller where
  senderId := name
  consumerId := some "cc-laptop".toList
  consumerClass := .smart

/-- An upsert of the project. -/
def upsert (pages : List PushPage) (deletes : List Str) (description : Option Str) :
    PushRequest where
  mode := .upsert
  wikiId := some project.wikiId
  description := description
  pages := pages
  deletes := deletes

end Sample

end Mwe
