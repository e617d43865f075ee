import MweCore.Dream.Requeue
import MweCore.Events.Recipient

/-!
# The erasure of a person

`forgetUser` is one pass over everything that names a person.  What they said of themselves goes;
what somebody else said of them is handed to the speaker; what they said of others stays, without
their name.  Facts in the wikis of the person leave them, and the wikis go, with what is left of
them in the trash.

Each statement is written for some rows of one table and for one column: `settle` and `relocate`
follow one fact, the others are updates of whole tables.  The pages are on the disk; what it comes
to when a region is cut off a page, or moved to another, is given by `Answers`.
-/

namespace Mwe

open Str Sql

/-! ## Statements -/

/-- A row as `retargetSubject` leaves it. -/
def FactRow.retargeted (subject : Principal) (name now : Str) (r : FactRow) : FactRow :=
  { r with
    subjectId := subject
    subjectExternal := r.subjectExternal.orElse fun _ => some name
    updatedAt := now }

@[simp] lemma FactRow.factId_retargeted (subject : Principal) (name now : Str) (r : FactRow) :
    (r.retargeted subject name now).factId = r.factId := rfl

/-- A row as `replaceSender` leaves it. -/
def FactRow.resent (sender : Principal) (now : Str) (r : FactRow) : FactRow :=
  { r with senderId := some sender, updatedAt := now }

@[simp] lemma FactRow.factId_resent (sender : Principal) (now : Str) (r : FactRow) :
    (r.resent sender now).factId = r.factId := rfl

/-- A row as `strikeFromAllow` leaves it. -/
def FactRow.struck (principal : Principal) (now : Str) (r : FactRow) : FactRow :=
  { r with allowIds := r.allowIds.filter fun p => p ≠ principal, updatedAt := now }

@[simp] lemma FactRow.factId_struck (principal : Principal) (now : Str) (r : FactRow) :
    (r.struck principal now).factId = r.factId := rfl

/-- A row as `moveToWiki` leaves it, its place on the page not yet known. -/
def FactRow.moved (wikiId sourcePath now : Str) (r : FactRow) : FactRow :=
  { r with wikiId, sourcePath, regionStart := none, regionEnd := none, updatedAt := now }

@[simp] lemma FactRow.factId_moved (wikiId sourcePath now : Str) (r : FactRow) :
    (r.moved wikiId sourcePath now).factId = r.factId := rfl

namespace FactIndex

/-- Hand a fact to a new subject, and keep the name of the one it was about. -/
def retargetSubject (facts : FactTable) (factId : FactId) (subject : Principal) (name now : Str) :
    FactTable :=
  updateActive facts factId (FactRow.retargeted subject name now)
    (FactRow.factId_retargeted subject name now)

/-- Replace one author by another on every fact that is not tombstoned. -/
def replaceSender (facts : FactTable) (old new : Principal) (now : Str) : FactTable :=
  facts.update (fun r => decide (r.senderId = some old) && r.deletedAt.isNone)
    (FactRow.resent new now) (FactRow.factId_resent new now)

/-- Strike a principal from the audience of every fact that is not tombstoned. -/
def strikeFromAllow (facts : FactTable) (principal : Principal) (now : Str) : FactTable :=
  facts.update (fun r => r.deletedAt.isNone && decide (principal ∈ r.allowIds))
    (FactRow.struck principal now) (FactRow.factId_struck principal now)

/-- Delete a row. -/
def erase (facts : FactTable) (factId : FactId) : FactTable :=
  facts.delete fun r => r.factId == factId

/-- Tombstone every fact of a wiki. -/
def markForgottenInWiki (facts : FactTable) (wikiId reason now : Str) : FactTable :=
  facts.update (fun r => decide (r.wikiId = wikiId) && r.deletedAt.isNone)
    (FactRow.forgotten reason now) (FactRow.factId_forgotten reason now)

/-- Move an active fact to a page of another wiki. -/
def moveToWiki (facts : FactTable) (factId : FactId) (wikiId sourcePath now : Str) : FactTable :=
  facts.update (fun r => r.factId == factId && r.isActive) (FactRow.moved wikiId sourcePath now)
    (FactRow.factId_moved wikiId sourcePath now)

/-- Why a fact is tombstoned whose marker is missing. -/
def reasonMarkerRemoved : Str := "filesystem_marker_removed".toList

/-- Tombstone the active facts of a page whose marker is missing there. -/
def sweepOrphans (facts : FactTable) (sourcePath : Str) (missing : List FactId) (now : Str) :
    FactTable :=
  facts.update (fun r => r.isActive && decide (r.sourcePath = sourcePath) &&
      decide (r.factId ∈ missing))
    (FactRow.forgotten reasonMarkerRemoved now) (FactRow.factId_forgotten reasonMarkerRemoved now)

/-- The active facts of a wiki. -/
def findActiveInWiki (facts : FactTable) (wikiId : Str) : List FactRow :=
  facts.rows.filter fun r => decide (r.wikiId = wikiId) && r.isActive

end FactIndex

namespace Gdpr

/-! ## The deployment -/

/-- A wiki of the forest. -/
structure WikiNode where
  wikiId : Str
  wikiType : Str
  relDir : List Str
  smart : Bool := false
  deriving DecidableEq

/-- A subtree in the trash; `root` is the root wiki it stood under, which no name of it records. -/
structure TrashDir where
  name : Str
  root : Str
  deriving DecidableEq

/-- The store, who is enrolled, and the directories. -/
structure Deployment where
  store : Store
  users : Table EnrollmentUser.userId
  enrolled : ∀ u ∈ users, isValidUserId u.userId = true
  groups : List EnrollmentGroup
  wikis : List WikiNode
  trash : List TrashDir

/-- What the disk answers while a person is erased, and the order in which the facts were made. -/
structure Answers where
  createdAt : FactId → Str
  /-- whether the region of a retired fact could be cut off its page -/
  cut : FactId → Bool
  /-- the facts whose marker is missing when that page is read again -/
  missing : FactId → List FactId
  /-- where a fact that may move to another wiki comes to stand, unless the move is refused -/
  refiled : FactId → Option Str

/-- Why a fact is tombstoned that an erasure destroys. -/
def forgetReason : Str := "gdpr_erasure".toList

/-- Why a fact is tombstoned whose wiki is deleted. -/
def deleteReason : Str := "wiki_deleted".toList

/-- The author of what a person who is gone has said. -/
def removedSender : Principal := .user "_removed".toList

/-- Whether a page is a rules page, by its name or the bare form of it. -/
def isRulesPage (sourcePath : Str) : Bool :=
  let last := (sourcePath.splitOn '/').getLast?.getD []
  last == "@rules.md".toList || last == "rules.md".toList

/-- What forgetting a person does to a fact. -/
inductive FactFate where
  | destroy
  | handOver (keeper : Principal)
  | disown
  | untouched
  deriving DecidableEq

/-- The fate of a fact. -/
def fateOf (row : FactRow) (gone : Principal) : FactFate :=
  if row.subjectId = gone then
    -- a rule handed to its author would bind the author
    if isRulesPage row.sourcePath then .destroy
    else
      match row.senderId.filter fun s => s ≠ gone && s ≠ removedSender with
      | none => .destroy
      | some keeper => .handOver keeper
  else if row.senderId = some gone then .disown
  else .untouched

/-- The wiki with an id. -/
def locate (wikis : List WikiNode) (wikiId : Str) : Option WikiNode :=
  wikis.find? fun d => d.wikiId = wikiId

/-- A wiki and what is under it. -/
def collectSubtree (wikis : List WikiNode) (root : WikiNode) : List WikiNode :=
  wikis.filter fun d => root.relDir.isPrefixOf d.relDir

/-- The active facts about a subject, the oldest first. -/
def findActiveBySubject (a : Answers) (facts : FactTable) (subject : Principal) : List FactRow :=
  (facts.rows.filter fun r => decide (r.subjectId = subject) && r.isActive).insertionSort
    fun r r' => a.createdAt r.factId ≤ a.createdAt r'.factId

/-! ## The facts -/

variable (a : Answers) (hers : List Str) (now : Str)

/-- Destroy a fact: tombstone it, take its prose off the page, and delete the row once that is
done. -/
def tombstoneFact (facts : FactTable) (row : FactRow) : FactTable :=
  let facts := (FactIndex.markForgotten facts row.factId forgetReason now).2
  if row.wikiId ∈ hers then FactIndex.erase facts row.factId
  else
    let facts := FactIndex.sweepOrphans facts row.sourcePath (a.missing row.factId) now
    if a.cut row.factId then FactIndex.erase facts row.factId else facts

/-- What becomes of a fact about the person. -/
def settle (userId : Str) (facts : FactTable) (row : FactRow) : FactTable :=
  match fateOf row (.user userId) with
  | .handOver keeper => FactIndex.retargetSubject facts row.factId keeper userId now
  | .destroy => tombstoneFact a hers now facts row
  | .disown | .untouched => facts

/-- The wiki a fact of a subject moves to. -/
def destinationWiki (wikis : List WikiNode) (subject : Principal) : Option Str :=
  let id? := match subject with
    | .user id => some id
    | .group id => if id = "global".toList then none else some id
  id?.bind fun id =>
    if id ∈ hers then none
    else ((WikiId.parse id).toOption.bind fun wiki => locate wikis wiki.val).bind fun d =>
      if d.smart then none else some d.wikiId

/-- Move a fact out of a wiki that is about to go. -/
def relocate (wikis : List WikiNode) (s : Store) (row : FactRow) : Store :=
  match destinationWiki hers wikis row.subjectId, a.refiled row.factId with
  | some dest, some path =>
    { s with facts := FactIndex.moveToWiki s.facts row.factId dest path now }
  | _, _ => (s.rebufferFact row.factId now).2

/-- Move what is active in a wiki out of it. -/
def evacuateWiki (wikis : List WikiNode) (s : Store) (wikiId : Str) : Store :=
  (FactIndex.findActiveInWiki s.facts wikiId).foldl (relocate a hers now wikis) s

/-! ## The queue -/

/-- The same rules over the claims that wait. -/
def forgetCaptures (userId : Str) (queue : QueueTable) : QueueTable :=
  let gone := Principal.user userId
  let queue := queue.delete fun c =>
    decide (c.status = .held) && (decide (c.subject = gone) || decide (c.sender = some gone))
  let queue := queue.delete fun c => decide (c.subject = gone) &&
    (c.sender.isNone || decide (c.sender = some gone) || decide (c.sender = some removedSender))
  let queue := queue.update
    (fun c => decide (c.subject = gone) && c.sender.any fun s => s ≠ gone && s ≠ removedSender)
    (fun c => { c with
      subject := c.sender.getD c.subject
      subjectExternal := c.subjectExternal.orElse fun _ => some userId }) fun _ => rfl
  queue.update (fun c => decide (c.sender = some gone))
    (fun c => { c with sender := some removedSender }) fun _ => rfl

/-- Strike a person from the audiences of the queue. -/
def strikeFromQueue (gone : Principal) (queue : QueueTable) : QueueTable :=
  queue.update (fun c => decide (gone ∈ c.allow))
    (fun c => { c with allow := c.allow.filter fun p => p ≠ gone }) fun _ => rfl

/-- Strike a person from the groups. -/
def strikeFromGroups (userId : Str) (groups : List EnrollmentGroup) : List EnrollmentGroup :=
  groups.map fun g => { g with members := g.members.filter fun m => m ≠ userId }

/-! ## The trash -/

/-- The id a name in the trash begins with. -/
def trashedId (name : Str) : Str := ((Search.splitOnce "__".toList name).map Prod.fst).getD name

/-- Whether a name in the trash is read as one of the person's. -/
def theirs (userId : Str) (dir : TrashDir) : Bool :=
  trashedId dir.name == userId || (userId ++ ['-']).isPrefixOf (trashedId dir.name)

/-- Erase what the trash holds under the person's name. -/
def eraseTrashedSubtrees (userId : Str) (trash : List TrashDir) : List TrashDir :=
  trash.filter fun dir => !theirs userId dir

/-! ## The whole pass -/

/-- The wiki of a person. -/
def rootWiki (w : Deployment) (userId : Str) : Option WikiNode :=
  (WikiId.parse userId).toOption.bind fun id => locate w.wikis id.val

/-- The wiki of a person and what is under it. -/
def herWikis (w : Deployment) (userId : Str) : List WikiNode :=
  (rootWiki w userId).elim [] (collectSubtree w.wikis)

/-- What the pass leaves of the store before the wikis go. -/
def forgetInStore (w : Deployment) (userId : Str) : Store :=
  let gone := Principal.user userId
  let hers := (herWikis w userId).map WikiNode.wikiId
  let facts := (findActiveBySubject a w.store.facts gone).foldl (settle a hers now userId)
    w.store.facts
  let facts := FactIndex.replaceSender facts gone removedSender now
  let facts := FactIndex.strikeFromAllow facts gone now
  let s := hers.foldl (evacuateWiki a hers now w.wikis) { w.store with facts }
  { s with queue := strikeFromQueue gone (forgetCaptures userId s.queue) }

/-- Forget a person; `none` when nobody of that id is enrolled, or when it is refused. -/
def forgetUser (w : Deployment) (userId : Str) : Option Deployment :=
  (w.users.get? userId).bind fun user =>
    if user.isAdmin then none
    else
      let s := forgetInStore a now w userId
      let groups := strikeFromGroups userId w.groups
      -- the wiki of a group that is enrolled is not deleted
      if (rootWiki w userId).any fun d => d.wikiType = "wiki-group".toList &&
          groups.any fun g => g.groupId = d.wikiId then none
      else some
        { store :=
            { s with
              facts := (herWikis w userId).foldl (fun facts d =>
                FactIndex.markForgottenInWiki facts d.wikiId deleteReason now) s.facts }
          users := w.users.delete fun u => u.userId = userId
          enrolled := fun u hu => w.enrolled u (Table.mem_delete_iff.mp hu).1
          groups
          wikis := w.wikis.filter fun d =>
            !(rootWiki w userId).any fun root => root.relDir.isPrefixOf d.relDir
          trash := eraseTrashedSubtrees userId w.trash }

end Gdpr

end Mwe
