import MweCore.FactIndex.Access

/-!
# The capture buffer

A claim that waits for its page is a row of `capture_buffer`.  The light dream reads the rows that
wait, writes each as a fact under the same id, and marks the row; closures, corrections and access
changes land on the row while it waits.
-/

namespace Mwe

/-- Where a claim stands. -/
inductive CaptureStatus where
  | buffered | promoted | skippedDup | held
  deriving DecidableEq, Repr

/-- A row of `capture_buffer`. -/
structure BufferedCapture where
  captureId : FactId
  body : Str
  subject : Principal
  subjectExternal : Option Str := none
  slot : Option Str := none
  slotValue : Option Str := none
  allow : List Principal := []
  excluded : List Principal := []
  sender : Option Principal := none
  factType : Option Str := none
  topics : List Str := []
  supersedeHint : Option FactId := none
  status : CaptureStatus := .buffered
  capturedAt : Str
  processedAt : Option Str := none
  resolvedFactId : Option FactId := none
  sourceKind : Str := "ingest".toList
  sourceRef : Option Str := none
  validFrom : Option Str := none
  validTo : Option Str := none
  decayReason : Option Str := none
  style : Option PageStyle := none
  salience : Option Str := none
  placementAttempts : ℕ := 0
  lastAttemptAt : Option Str := none
  authoredRefs : List Str := []
  originMessageHash : Option Str := none
  deriving DecidableEq

/-- The table `capture_buffer`. -/
abbrev QueueTable := Sql.Table BufferedCapture.captureId

namespace BufferedCapture

/-- A row as `markPromoted` leaves it. -/
def promoted (now : Str) (cap : BufferedCapture) : BufferedCapture :=
  { cap with status := .promoted, processedAt := some now, resolvedFactId := some cap.captureId }

@[simp] lemma captureId_promoted (now : Str) (cap : BufferedCapture) :
    (cap.promoted now).captureId = cap.captureId := rfl

/-- A row as `markSkippedDup` leaves it. -/
def skipped (dup : FactId) (now : Str) (cap : BufferedCapture) : BufferedCapture :=
  { cap with status := .skippedDup, processedAt := some now, resolvedFactId := some dup }

@[simp] lemma captureId_skipped (dup : FactId) (now : Str) (cap : BufferedCapture) :
    (cap.skipped dup now).captureId = cap.captureId := rfl

/-- A row as `markPlacementAttempted` leaves it. -/
def attempted (now : Str) (cap : BufferedCapture) : BufferedCapture :=
  { cap with placementAttempts := cap.placementAttempts + 1, lastAttemptAt := some now }

@[simp] lemma captureId_attempted (now : Str) (cap : BufferedCapture) :
    (cap.attempted now).captureId = cap.captureId := rfl

/-- A row as `rebufferFact` leaves one that is there. -/
def requeued (cap : BufferedCapture) : BufferedCapture :=
  { cap with status := .buffered, processedAt := none, resolvedFactId := none }

@[simp] lemma captureId_requeued (cap : BufferedCapture) :
    cap.requeued.captureId = cap.captureId := rfl

/-- A row as `closeValidity` leaves it. -/
def closed (validTo reason : Str) (cap : BufferedCapture) : BufferedCapture :=
  { cap with validTo := some validTo, decayReason := some reason }

@[simp] lemma captureId_closed (validTo reason : Str) (cap : BufferedCapture) :
    (cap.closed validTo reason).captureId = cap.captureId := rfl

/-- A row as `setValidity` leaves it. -/
def edited (validFrom validTo : Option Str) (cap : BufferedCapture) : BufferedCapture :=
  { cap with validFrom, validTo }

@[simp] lemma captureId_edited (validFrom validTo : Option Str) (cap : BufferedCapture) :
    (cap.edited validFrom validTo).captureId = cap.captureId := rfl

/-- A row as `setAcl` leaves it. -/
def withAcl (subject : Principal) (allow : List Principal) (sender : Option Principal)
    (cap : BufferedCapture) : BufferedCapture :=
  { cap with subject, allow, sender }

@[simp] lemma captureId_withAcl (subject : Principal) (allow : List Principal)
    (sender : Option Principal) (cap : BufferedCapture) :
    (cap.withAcl subject allow sender).captureId = cap.captureId := rfl

/-- A row as `inheritAllow` leaves it. -/
def withAllow (allow : List Principal) (cap : BufferedCapture) : BufferedCapture :=
  { cap with allow }

@[simp] lemma captureId_withAllow (allow : List Principal) (cap : BufferedCapture) :
    (cap.withAllow allow).captureId = cap.captureId := rfl

end BufferedCapture

namespace CaptureBuffer

/-- The row of a claim that waits. -/
def waitingRow (queue : QueueTable) (captureId : FactId) : Option BufferedCapture :=
  (queue.get? captureId).filter fun cap => cap.status = .buffered

/-- `UPDATE capture_buffer SET … WHERE capture_id = ? AND status = 'buffered'`. -/
def updateWaiting (queue : QueueTable) (captureId : FactId)
    (set : BufferedCapture → BufferedCapture) (hset : ∀ cap, (set cap).captureId = cap.captureId) :
    QueueTable :=
  queue.update (fun cap => cap.captureId == captureId && decide (cap.status = .buffered)) set hset

/-- The claims that wait, the oldest first, up to a limit. -/
def findAllBuffered (queue : QueueTable) (limit : ℕ) : List BufferedCapture :=
  ((queue.rows.filter fun cap => cap.status = .buffered).insertionSort fun a b =>
    toLex (a.capturedAt, a.captureId.val) ≤ toLex (b.capturedAt, b.captureId.val)).take limit

/-- Mark a claim as written. -/
def markPromoted (queue : QueueTable) (captureId : FactId) (now : Str) : QueueTable :=
  updateWaiting queue captureId (BufferedCapture.promoted now)
    (BufferedCapture.captureId_promoted now)

/-- Mark a claim as folded into a fact. -/
def markSkippedDup (queue : QueueTable) (captureId dup : FactId) (now : Str) : QueueTable :=
  updateWaiting queue captureId (BufferedCapture.skipped dup now)
    (BufferedCapture.captureId_skipped dup now)

/-- Count a placement pass that gave a claim no page. -/
def markPlacementAttempted (queue : QueueTable) (captureId : FactId) (now : Str) : QueueTable :=
  updateWaiting queue captureId (BufferedCapture.attempted now)
    (BufferedCapture.captureId_attempted now)

section Validity

variable {T : Type*} [LinearOrder T] (chrono : Chrono T)

/-- Close the window of a claim that waits. -/
def closeValidity (queue : QueueTable) (captureId : FactId) (validTo reason : Str)
    (whenUnstated : T) : Option FactIndex.ClosedValidity × QueueTable :=
  match waitingRow queue captureId with
  | none => (none, queue)
  | some cap =>
    let validTo := endNotBeforeStart chrono cap.validFrom validTo whenUnstated
    (some { writtenValidTo := validTo, prevValidTo := cap.validTo
            prevDecayReason := cap.decayReason, prevSuccessorFactId := none },
      updateWaiting queue captureId (BufferedCapture.closed validTo reason)
        (BufferedCapture.captureId_closed validTo reason))

/-- Correct the window of a claim that waits; an omitted bound keeps its value. -/
def setValidity (queue : QueueTable) (captureId : FactId) (validFrom validTo : Option Str) :
    FactIndex.ValidityEdit × QueueTable :=
  match waitingRow queue captureId with
  | none => (.noSuchRow, queue)
  | some cap =>
    let newFrom := validFrom.orElse fun _ => cap.validFrom
    let newTo := validTo.orElse fun _ => cap.validTo
    if windowIsInverted chrono newFrom newTo then (.endBeforeStart, queue)
    else
      (.applied cap.validFrom cap.validTo,
        updateWaiting queue captureId (BufferedCapture.edited newFrom newTo)
          (BufferedCapture.captureId_edited newFrom newTo))

end Validity

/-- Change the subject, the audience and the author of a claim that waits. -/
def setAcl (queue : QueueTable) (captureId : FactId) (subject : Principal)
    (allow : List Principal) (sender : Option Principal) : Option FactIndex.PrevAcl × QueueTable :=
  match waitingRow queue captureId with
  | none => (none, queue)
  | some cap =>
    (some { prevSubjectId := cap.subject, prevAllowIds := cap.allow, prevSenderId := cap.sender },
      updateWaiting queue captureId (BufferedCapture.withAcl subject allow sender)
        (BufferedCapture.captureId_withAcl subject allow sender))

/-- Replace the audience of a claim that waits. -/
def inheritAllow (queue : QueueTable) (captureId : FactId) (allow : List Principal) :
    Bool × QueueTable :=
  ((waitingRow queue captureId).isSome, updateWaiting queue captureId
    (BufferedCapture.withAllow allow) (BufferedCapture.captureId_withAllow allow))

lemma get?_updateWaiting (queue : QueueTable) (captureId : FactId)
    (set : BufferedCapture → BufferedCapture) (hset : ∀ cap, (set cap).captureId = cap.captureId)
    (id : FactId) :
    (updateWaiting queue captureId set hset).get? id = (queue.get? id).map fun cap =>
      if id = captureId ∧ cap.status = .buffered then set cap else cap := by
  unfold updateWaiting
  rw [Sql.Table.get?_update]
  cases hget : queue.get? id with
  | none => rfl
  | some cap =>
    obtain ⟨-, rfl⟩ := Sql.Table.get?_eq_some_iff.mp hget
    simp

end CaptureBuffer

end Mwe
