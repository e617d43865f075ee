import MweCore.Capture.Buffer

/-!
# A waiting claim becomes a fact

`write_placed` writes one claim of the queue into the fact index, on the page the plan gave it: it
inserts the row, stamps the reason a closure staged, retires the fact the claim was heard to
replace, and marks the claim.  Each of the four is a statement of its own.
-/

namespace Mwe

open Str

/-- The fact index and the capture buffer. -/
structure Store where
  facts : FactTable
  queue : QueueTable

/-- The clocks a promotion reads: the memory's, and the engine's at each statement. -/
structure PromoteEnv (T : Type*) where
  memoryNow : T
  insertedAt : Str
  stampedAt : Str
  supersededAt : Str
  promotedAt : Str

/-- Directory of the wikis in the address of a page. -/
def wikisDirName : Str := "wikis".toList

/-- The fact a claim becomes on a page. -/
def placedFact (cap : BufferedCapture) (wikiId pagePath : Str) : NewFact where
  factId := cap.captureId
  wikiId := wikiId
  sourcePath := wikisDirName ++ '/' :: wikiId ++ '/' :: pagePath
  regionStart := none
  regionEnd := none
  text := cap.body
  subjectId := cap.subject
  subjectExternal := cap.subjectExternal
  slot := cap.slot
  slotValue := cap.slotValue
  allowIds := cap.allow
  excludedIds := cap.excluded
  senderId := cap.sender
  factType := cap.factType
  topics := cap.topics
  validFrom := cap.validFrom
  validTo := cap.validTo
  targetPage := some pagePath
  style := cap.style
  salience := cap.salience
  sourceRef := cap.sourceRef
  authoredRefs := cap.authoredRefs

section Promote

variable {T : Type*} [LinearOrder T] (chrono : Chrono T)

/-- The instant a claim's correction is dated by. -/
def capturedInstant (memoryNow : T) (cap : BufferedCapture) : T :=
  (cap.validFrom.bind (instantOf chrono)).getD memoryNow

namespace Store

/-- Insert the fact. -/
def insertPlaced (s : Store) (env : PromoteEnv T) (cap : BufferedCapture)
    (wikiId pagePath : Str) : Store :=
  { s with facts :=
      FactIndex.insertIfAbsent s.facts (placedFact cap wikiId pagePath) env.insertedAt }

/-- Stamp the reason a closure of the waiting claim staged. -/
def stampPlaced (s : Store) (env : PromoteEnv T) (cap : BufferedCapture) : Store :=
  match cap.decayReason with
  | some reason =>
    { s with facts := FactIndex.stampDecayReason s.facts cap.captureId reason env.stampedAt }
  | none => s

/-- The fact the claim was heard to replace, when it is still there. -/
def hinted (s : Store) (cap : BufferedCapture) : Option FactId :=
  cap.supersedeHint.filter fun old =>
    (s.facts.get? old).any fun row => row.supersededAt.isNone && row.deletedAt.isNone

/-- Retire the fact the claim was heard to replace. -/
def supersedeHinted (s : Store) (env : PromoteEnv T) (cap : BufferedCapture) : Store :=
  match s.hinted cap with
  | some old =>
    { s with facts := (FactIndex.markSuperseded chrono s.facts
        ((s.queue.get? cap.captureId).bind BufferedCapture.validFrom) old cap.captureId
        (capturedInstant chrono env.memoryNow cap) env.supersededAt).2 }
  | none => s

/-- Mark the claim as written. -/
def finishPlaced (s : Store) (env : PromoteEnv T) (cap : BufferedCapture) : Store :=
  { s with queue := CaptureBuffer.markPromoted s.queue cap.captureId env.promotedAt }

/-- Write one claim into the fact index, on the page the plan gave it. -/
def writePlaced (s : Store) (env : PromoteEnv T) (cap : BufferedCapture)
    (wikiId pagePath : Str) : Store :=
  (((s.insertPlaced env cap wikiId pagePath).stampPlaced env cap).supersedeHinted chrono env
    cap).finishPlaced env cap

end Store

/-! ### What a supersede leaves alone -/

/-- A supersede rewrites the row of the fact it retires and no other. -/
lemma FactIndex.get?_markSuperseded (facts : FactTable) (staged : Option Str)
    (oldFactId newFactId : FactId) (whenUnstated : T) (now : Str) {id : FactId}
    (h : id ≠ oldFactId) :
    (FactIndex.markSuperseded chrono facts staged oldFactId newFactId whenUnstated now).2.get? id =
      facts.get? id := by
  unfold FactIndex.markSuperseded
  dsimp only
  rw [Sql.Table.get?_update]
  cases hget : facts.get? id with
  | none => rfl
  | some r =>
    obtain ⟨-, hid⟩ := Sql.Table.get?_eq_some_iff.mp hget
    simp [hid, h]

end Promote

end Mwe
