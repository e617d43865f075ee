import MweCore.Dream.Requeue

/-!
# Editing a claim that waits

A light cycle reads the queue once, thinks, and writes what it read; meanwhile closures,
corrections and access changes go on landing, each on the fact if there is one under the id and
else on the row of the queue.  A `System` is the two tables with a cycle and an edit in flight; one
event is one statement.

`Wish` is what the edits that reported success have asked of a fact, the last word on each column.
`no_edit_lost` says what it takes for the facts to be as they were asked to be once the cycle has
ended: an edit of a queue row must not come behind the cycle's back.
-/

namespace Mwe

open Str

namespace LightCycle

/-! ## Edits -/

/-- A call of one of the four edits, on the fact first and then on the queue. -/
inductive Edit (T : Type*) where
  | closeValidity (validTo reason : Str) (successor : Option FactId) (whenUnstated : T)
  | setValidity (validFrom validTo : Option Str)
  | setAcl (subject : Principal) (allow : List Principal) (sender : Option Principal)
      (excluded : Option (List Principal))
  | inheritAllow (allow : List Principal)

/-- What an `UPDATE` makes of a fact. -/
abbrev FactSet := { set : FactRow → FactRow // ∀ r, (set r).factId = r.factId }

/-- What an `UPDATE` makes of a row of the queue. -/
abbrev CaptureSet := { set : BufferedCapture → BufferedCapture //
  ∀ cap, (set cap).captureId = cap.captureId }

/-- What a caller has asked of a fact, column by column. -/
structure Wish where
  validFrom : Option Str := none
  validTo : Option Str := none
  decayReason : Option Str := none
  subject : Option Principal := none
  allow : Option (List Principal) := none
  author : Option (Option Principal) := none
  excluded : Option (List Principal) := none

/-- A claim is as it was asked to be. -/
def Wish.honored (w : Wish) (c : Claim) : Bool :=
  w.validFrom.all (fun v => c.validFrom = some v) && w.validTo.all (fun v => c.validTo = some v) &&
    w.decayReason.all (fun v => c.decayReason = some v) && w.subject.all (c.subject = ·) &&
    w.allow.all (c.allow = ·) && w.author.all (c.author = ·) && w.excluded.all (c.excluded = ·)

/-- One wish after another: the later one has the last word. -/
def Wish.andThen (w later : Wish) : Wish where
  validFrom := later.validFrom.or w.validFrom
  validTo := later.validTo.or w.validTo
  decayReason := later.decayReason.or w.decayReason
  subject := later.subject.or w.subject
  allow := later.allow.or w.allow
  author := later.author.or w.author
  excluded := later.excluded.or w.excluded

/-- Two bounds are as they were asked to be. -/
def Wish.boundsHonored (w : Wish) (validFrom validTo : Option Str) : Prop :=
  (∀ v, w.validFrom = some v → validFrom = some v) ∧ ∀ v, w.validTo = some v → validTo = some v

namespace Edit

variable {T : Type*} [LinearOrder T] (chrono : Chrono T)

/-- What an edit that read a fact writes; `none` when it refuses. -/
def onFact (e : Edit T) (read : FactRow) (now : Str) : Option FactSet :=
  match e with
  | closeValidity validTo reason successor whenUnstated =>
    let validTo := endNotBeforeStart chrono read.validFrom validTo whenUnstated
    some ⟨.closed validTo reason successor now, FactRow.factId_closed validTo reason successor now⟩
  | setValidity validFrom validTo =>
    let newFrom := validFrom.orElse fun _ => read.validFrom
    let newTo := validTo.orElse fun _ => read.validTo
    if windowIsInverted chrono newFrom newTo then none
    else some ⟨.edited newFrom newTo now, FactRow.factId_edited newFrom newTo now⟩
  | setAcl subject allow sender excluded =>
    some ⟨.withAcl subject allow sender excluded now,
      FactRow.factId_withAcl subject allow sender excluded now⟩
  | inheritAllow allow => some ⟨.withAllow allow now, FactRow.factId_withAllow allow now⟩

/-- What an edit that read a row of the queue writes; the queue's `set_acl` has no word on the
exclusions. -/
def onWaiting (e : Edit T) (read : BufferedCapture) : Option CaptureSet :=
  match e with
  | closeValidity validTo reason _ whenUnstated =>
    let validTo := endNotBeforeStart chrono read.validFrom validTo whenUnstated
    some ⟨.closed validTo reason, BufferedCapture.captureId_closed validTo reason⟩
  | setValidity validFrom validTo =>
    let newFrom := validFrom.orElse fun _ => read.validFrom
    let newTo := validTo.orElse fun _ => read.validTo
    if windowIsInverted chrono newFrom newTo then none
    else some ⟨.edited newFrom newTo, BufferedCapture.captureId_edited newFrom newTo⟩
  | setAcl subject allow sender _ =>
    some ⟨.withAcl subject allow sender, BufferedCapture.captureId_withAcl subject allow sender⟩
  | inheritAllow allow => some ⟨.withAllow allow, BufferedCapture.captureId_withAllow allow⟩

/-- What an edit asks for, by the start of the window it read. -/
def wish (e : Edit T) (validFrom : Option Str) : Wish :=
  match e with
  | closeValidity validTo reason _ whenUnstated =>
    { validTo := some (endNotBeforeStart chrono validFrom validTo whenUnstated)
      decayReason := some reason }
  | setValidity validFrom validTo => { validFrom, validTo }
  | setAcl subject allow sender excluded =>
    { subject := some subject, allow := some allow, author := some sender
      excluded := excluded.map List.eraseDups }
  | inheritAllow allow => { allow := some allow }

/-- Whether an edit is one `UPDATE`, with no `SELECT` before it. -/
def blind : Edit T → Bool
  | inheritAllow _ => true
  | _ => false

/-! ### The edits whole -/

/-- The edit of a fact, without interruption. -/
def callFact (e : Edit T) (facts : FactTable) (factId : FactId) (now : Str) : FactTable :=
  match e with
  | closeValidity validTo reason successor whenUnstated =>
    (FactIndex.closeValidity chrono facts factId validTo reason successor whenUnstated now).2
  | setValidity validFrom validTo =>
    (FactIndex.setValidity chrono facts factId validFrom validTo now).2
  | setAcl subject allow sender excluded =>
    (FactIndex.setAcl facts factId subject allow sender excluded now).2
  | inheritAllow allow => (FactIndex.inheritAllow facts factId allow now).2

/-- The edit of a claim that waits, without interruption. -/
def callWaiting (e : Edit T) (queue : QueueTable) (captureId : FactId) : QueueTable :=
  match e with
  | closeValidity validTo reason _ whenUnstated =>
    (CaptureBuffer.closeValidity chrono queue captureId validTo reason whenUnstated).2
  | setValidity validFrom validTo =>
    (CaptureBuffer.setValidity chrono queue captureId validFrom validTo).2
  | setAcl subject allow sender _ =>
    (CaptureBuffer.setAcl queue captureId subject allow sender).2
  | inheritAllow allow => (CaptureBuffer.inheritAllow queue captureId allow).2

/-- An edit that reads a fact and is not interrupted before it writes does what its function does. -/
theorem callFact_eq (e : Edit T) {facts : FactTable} {factId : FactId} {row : FactRow}
    (now : Str) (h : FactIndex.activeRow facts factId = some row) :
    e.callFact chrono facts factId now = match e.onFact chrono row now with
      | some set => FactIndex.updateActive facts factId set.1 set.2
      | none => facts := by
  cases e with
  | closeValidity validTo reason successor whenUnstated =>
    simp only [callFact, FactIndex.closeValidity, h, onFact]
  | setValidity validFrom validTo =>
    simp only [callFact, FactIndex.setValidity, h, onFact]
    split_ifs <;> rfl
  | setAcl subject allow sender excluded => simp only [callFact, FactIndex.setAcl, h, onFact]
  | inheritAllow allow => rfl

/-- The same for a claim that waits. -/
theorem callWaiting_eq (e : Edit T) {queue : QueueTable} {captureId : FactId}
    {cap : BufferedCapture} (h : CaptureBuffer.waitingRow queue captureId = some cap) :
    e.callWaiting chrono queue captureId = match e.onWaiting chrono cap with
      | some set => CaptureBuffer.updateWaiting queue captureId set.1 set.2
      | none => queue := by
  cases e with
  | closeValidity validTo reason successor whenUnstated =>
    simp only [callWaiting, CaptureBuffer.closeValidity, h, onWaiting]
  | setValidity validFrom validTo =>
    simp only [callWaiting, CaptureBuffer.setValidity, h, onWaiting]
    split_ifs <;> rfl
  | setAcl subject allow sender excluded =>
    simp only [callWaiting, CaptureBuffer.setAcl, h, onWaiting]
  | inheritAllow allow => rfl

end Edit

end LightCycle

end Mwe
