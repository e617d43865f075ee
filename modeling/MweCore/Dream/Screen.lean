import MweCore.Capture.Write
import MweCore.Dream.Promote

/-!
# Screening the claims that wait

Before the light dream places a claim it asks whether the claim is already remembered.  It compares
it as a capture does with the facts about its subject, first under a wish to keep it from somebody
and then as it is, and last with the facts its author told somebody else, whose readers the claim
then settles.
-/

namespace Mwe

open Planner Capture

namespace Dream

/-- What became of a claim that was screened. -/
inductive Screened where
  | folded (dup : FactId)
  /-- there is no wiki for its subject, and it is left waiting -/
  | noWiki
  | forPlan (fact : FactForPage)

/-- The wiki a claim is at home in; `onDisk` says of each wiki whether it is an agent's. -/
def homeWiki (cap : BufferedCapture) (onDisk : List (Str × Bool)) : Option Str :=
  if (onDisk.lookup cap.subject.id).isSome then some cap.subject.id
  else cap.sender.bind fun sender =>
    if onDisk.lookup sender.id = some false then some sender.id else none

/-- Who may read a claim. -/
def audienceOf (cap : BufferedCapture) : Capture.Audience where
  subject := cap.subject
  allow := cap.allow
  excluded := cap.excluded
  sender := cap.sender

/-- The plan's side of a claim. -/
def planned (cap : BufferedCapture) (home : Str) : FactForPage where
  factId := cap.captureId
  text := cap.body
  factType := cap.factType
  subject := cap.subject
  allow := cap.allow
  sender := cap.sender
  subjectExternal := cap.subjectExternal
  sourceWikiId := home
  validFrom := cap.validFrom
  validTo := cap.validTo
  decayReason := cap.decayReason
  style := cap.style
  salience := cap.salience
  authoredRefs := cap.authoredRefs
  topics := cap.topics

section Screen

variable {S : Type*} [LinearOrder S] (floats : Floats S) (casing : Casing)

/-- The fact a waiting claim folds into, and the table with what the claim says of its readers. -/
def foldedInto (roster : Roster) (facts : FactTable) (cap : BufferedCapture) (threshold : S)
    (now : Str) : Option (FactRow × S) × FactTable :=
  let active := FactIndex.findActiveBySubject facts cap.subject
  match saidAgain floats casing roster facts active (audienceOf cap) none cap.body
      (some cap.captureId) threshold now with
  | (some hit, facts) => (some hit, facts)
  | (none, facts) =>
    carryTheNewAudienceOntoTheFactItFoldsInto (Recall.score floats casing) roster facts active
      (audienceOf cap) none cap.body (cap.sender.getD cap.subject) threshold now

/-- Screen one claim. -/
def screenOne (roster : Roster) (onDisk : List (Str × Bool)) (s : Store) (cap : BufferedCapture)
    (threshold : S) (now : Str) : Screened × Store :=
  match foldedInto floats casing roster s.facts cap threshold now with
  | (some (dup, _), facts) =>
    (.folded dup.factId,
      { facts, queue := CaptureBuffer.markSkippedDup s.queue cap.captureId dup.factId now })
  | (none, facts) =>
    match homeWiki cap onDisk with
    | none => (.noWiki, { s with facts })
    | some home => (.forPlan (planned cap home), { s with facts })

end Screen

end Dream

end Mwe
