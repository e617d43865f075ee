import MweCore.Capture.Body
import MweCore.Capture.Buffer

/-!
# A question about a box of somebody's card

A claim that argues with a value on somebody's card is parked, and a question goes to the person
whose card it is.  The question names the parked claim; the answer releases the claim into the
queue or drops it.  This module has the rows and the single statements on them: each is one
statement on the database, and others may run between any two.
-/

namespace Mwe

open Sql

/-! ## Questions -/

/-- Where a proposal stands. -/
inductive ProposalStatus where
  | pending | applied | expired
  deriving DecidableEq, Repr

/-- What the owner of a card said of the two values. -/
inductive SlotVerdict where
  | keep | retire | both
  deriving DecidableEq, Repr

/-- Whether a verdict keeps the claim that was parked. -/
def SlotVerdict.keepsClaim : SlotVerdict → Bool
  | .keep => false
  | .retire | .both => true

/-- Two values for one box, as the turn that met them puts them. -/
structure SlotConflict where
  slot : Str
  manyValues : Bool
  assertedKey : Option Str
  keptFactId : FactId
  successor : Option FactId

/-- A row of `structure_proposals` that asks about a box. -/
structure SlotQuestion where
  proposalId : Str
  conflict : SlotConflict
  parkedCaptureId : Option FactId
  timeoutAt : Str
  status : ProposalStatus := .pending
  verdict : Option SlotVerdict := none

/-- A question was closed with a verdict that keeps its claim. -/
def SlotQuestion.Keeps (q : SlotQuestion) : Prop :=
  q.status = .applied ∧ ∃ v, q.verdict = some v ∧ v.keepsClaim = true

/-- The questions about boxes. -/
abbrev QuestionTable := Table SlotQuestion.proposalId

namespace Proposals

/-- The question about this fact, this box and this value that is already waiting; where one side
has no value the pair decides. -/
def pendingSlotConflict (questions : QuestionTable) (c : SlotConflict) : Option Str :=
  (questions.rows.find? fun q => decide (q.status = .pending) &&
    decide (q.conflict.keptFactId = c.keptFactId) && decide (q.conflict.slot = c.slot) &&
      (c.assertedKey.isNone || q.conflict.assertedKey.isNone ||
        decide (q.conflict.assertedKey = c.assertedKey))).map SlotQuestion.proposalId

/-- Whether the index of one question per disagreement refuses a question; rows without a value
constrain nothing. -/
def alreadyPending (questions : QuestionTable) (c : SlotConflict) : Bool :=
  c.assertedKey.isSome && questions.rows.any fun q => decide (q.status = .pending) &&
    decide (q.conflict.keptFactId = c.keptFactId) && decide (q.conflict.slot = c.slot) &&
      decide (q.conflict.assertedKey = c.assertedKey)

/-- Open a question, unless the same one is open. -/
def emitSlotConflict (questions : QuestionTable) (c : SlotConflict) (proposalId : Str)
    (parked : Option FactId) (timeoutAt : Str) : Option QuestionTable :=
  if alreadyPending questions c then none else questions.insert ⟨proposalId, c, parked, timeoutAt,
    .pending, none⟩

/-- The verdict of an answer: `both` only where the box may hold several values, and without an
answer what is recommended. -/
def slotVerdict (manyValues : Bool) (answer : Option Str) : SlotVerdict :=
  let verdict := answer.getD (if manyValues then "both".toList else "keep".toList)
  if verdict = "both".toList ∧ manyValues then .both
  else if verdict = "retire".toList then .retire
  else .keep

/-- Record the verdict on a question that is still pending. -/
def markApplied (questions : QuestionTable) (proposalId : Str) (verdict : SlotVerdict) :
    QuestionTable :=
  questions.update (fun q => decide (q.proposalId = proposalId) && decide (q.status = .pending))
    (fun q => { q with status := .applied, verdict := some verdict }) fun _ => rfl

/-- The parked claims of the questions that are overdue. -/
def doomed (questions : QuestionTable) (cutoff : Str) : List FactId :=
  let overdue := questions.rows.filter fun q =>
    decide (q.status = .pending) && decide (q.timeoutAt < cutoff)
  overdue.filterMap SlotQuestion.parkedCaptureId

/-- Expire the questions that are overdue. -/
def expireOverdue (questions : QuestionTable) (cutoff : Str) : QuestionTable :=
  questions.update (fun q => decide (q.status = .pending) && decide (q.timeoutAt < cutoff))
    (fun q => { q with status := .expired }) fun _ => rfl

lemma mem_markApplied_iff {questions : QuestionTable} {proposalId : Str} {verdict : SlotVerdict}
    {q' : SlotQuestion} :
    q' ∈ markApplied questions proposalId verdict ↔ ∃ q ∈ questions,
      (if decide (q.proposalId = proposalId) && decide (q.status = .pending) then
        { q with status := .applied, verdict := some verdict } else q) = q' :=
  Table.mem_update_iff

lemma mem_expireOverdue_iff {questions : QuestionTable} {cutoff : Str} {q' : SlotQuestion} :
    q' ∈ expireOverdue questions cutoff ↔ ∃ q ∈ questions,
      (if decide (q.status = .pending) && decide (q.timeoutAt < cutoff) then
        { q with status := .expired } else q) = q' :=
  Table.mem_update_iff

end Proposals

/-! ## Parked claims -/

namespace CaptureBuffer

/-- Check the body of a claim that is buffered. -/
def validateBufferBody (body : Str) : Bool :=
  !Str.contains "<!--".toList body && (validateBody body).toOption.isSome

/-- Write the row of a parked claim. -/
def parkCapture (queue : QueueTable) (claim : BufferedCapture) : QueueTable :=
  if validateBufferBody claim.body then queue.insertIfAbsent { claim with status := .held }
  else queue

/-- Move a parked claim into the queue. -/
def releaseHeld (queue : QueueTable) (captureId : FactId) : QueueTable :=
  queue.update (fun cap => decide (cap.captureId = captureId) && decide (cap.status = .held))
    (fun cap => { cap with status := .buffered }) fun _ => rfl

/-- Drop a parked claim. -/
def discardHeld (queue : QueueTable) (captureId : FactId) : QueueTable :=
  queue.delete fun cap => decide (cap.captureId = captureId) && decide (cap.status = .held)

/-- Whether a pending question waits on a parked claim. -/
def isAwaited (questions : QuestionTable) (captureId : FactId) : Bool :=
  questions.rows.any fun q =>
    decide (q.status = .pending) && decide (q.parkedCaptureId = some captureId)

/-- Drop every parked claim written before the cutoff that no pending question waits on. -/
def sweepOrphanHeld (queue : QueueTable) (questions : QuestionTable) (cutoff : Str) : QueueTable :=
  queue.delete fun cap => decide (cap.status = .held) && decide (cap.capturedAt < cutoff) &&
    !isAwaited questions cap.captureId

/-! ### Where a claim stands after a statement -/

/-- Where the claim with an id stands, if it has a row. -/
def statusOf (queue : QueueTable) (captureId : FactId) : Option CaptureStatus :=
  (queue.get? captureId).map BufferedCapture.status

variable {queue : QueueTable} {id : FactId}

lemma statusOf_releaseHeld (captureId : FactId) :
    statusOf (releaseHeld queue captureId) id =
      if id = captureId ∧ statusOf queue id = some .held then some .buffered
      else statusOf queue id := by
  unfold statusOf releaseHeld
  rw [Table.get?_update]
  cases hget : queue.get? id with
  | none => simp
  | some cap =>
    obtain ⟨-, rfl⟩ := Table.get?_eq_some_iff.mp hget
    simp only [Option.map_some, Bool.and_eq_true, decide_eq_true_eq, Option.some.injEq]
    split_ifs <;> rfl

lemma statusOf_discardHeld (captureId : FactId) :
    statusOf (discardHeld queue captureId) id =
      if id = captureId ∧ statusOf queue id = some .held then none else statusOf queue id := by
  unfold statusOf discardHeld
  rw [Table.get?_delete]
  cases hget : queue.get? id with
  | none => simp
  | some cap =>
    obtain ⟨-, rfl⟩ := Table.get?_eq_some_iff.mp hget
    simp only [Option.map_some, Option.some.injEq]
    split_ifs with h
    · rw [Option.filter_some_neg (by simp [h])]
      rfl
    · rw [Option.filter_some_pos (by simpa [imp_iff_not_or] using h)]
      rfl

lemma get?_sweepOrphanHeld (questions : QuestionTable) (cutoff : Str) :
    (sweepOrphanHeld queue questions cutoff).get? id = (queue.get? id).filter fun cap =>
      !(decide (cap.status = .held) && decide (cap.capturedAt < cutoff) &&
        !isAwaited questions id) := by
  unfold sweepOrphanHeld
  rw [Table.get?_delete]
  cases hget : queue.get? id with
  | none => rfl
  | some cap =>
    obtain ⟨-, rfl⟩ := Table.get?_eq_some_iff.mp hget
    rfl

/-- A sweep leaves a claim where it stands, or drops it while it is parked. -/
lemma statusOf_sweepOrphanHeld (queue : QueueTable) (questions : QuestionTable) (cutoff : Str)
    (id : FactId) :
    statusOf (sweepOrphanHeld queue questions cutoff) id = statusOf queue id ∨
      statusOf queue id = some .held ∧ isAwaited questions id = false ∧
        statusOf (sweepOrphanHeld queue questions cutoff) id = none := by
  unfold statusOf
  rw [get?_sweepOrphanHeld]
  cases hget : queue.get? id with
  | none => exact .inl rfl
  | some cap =>
    by_cases hdrop : cap.status = .held ∧ cap.capturedAt < cutoff ∧ isAwaited questions id = false
    · refine .inr ⟨by simp [hdrop.1], hdrop.2.2, ?_⟩
      rw [Option.filter_some_neg (by simp [hdrop])]
      rfl
    · refine .inl ?_
      rw [Option.filter_some_pos]
      simp only [Bool.not_eq_true', Bool.and_eq_false_iff, decide_eq_false_iff_not,
        Bool.not_eq_false']
      by_contra h
      push Not at h
      exact hdrop ⟨h.1.1, h.1.2, by simpa using h.2⟩

/-- Parking gives a claim a row, at most. -/
lemma statusOf_parkCapture (queue : QueueTable) (claim : BufferedCapture) (id : FactId) :
    statusOf (parkCapture queue claim) id = statusOf queue id ∨
      statusOf queue id = none ∧ statusOf (parkCapture queue claim) id = some .held := by
  unfold statusOf parkCapture
  split_ifs
  · rw [Table.get?_insertIfAbsent]
    cases hget : queue.get? id with
    | some cap => exact .inl rfl
    | none =>
      by_cases hid : claim.captureId = id
      · exact .inr ⟨rfl, by simp [hid]⟩
      · exact .inl (by simp [hid])
  · exact .inl rfl

end CaptureBuffer

end Mwe
