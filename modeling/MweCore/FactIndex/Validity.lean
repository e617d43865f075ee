import MweCore.Lib.Run
import MweCore.Lib.Table
import MweCore.Types

/-!
# The validity window of a fact

A fact holds from `validFrom` to `validTo`, two columns of text that usually spell an instant.
Five operations of the fact index write them: `insert`, `markSuperseded`, `closeValidity`,
`setValidity` and `setFactType`.  A window must not end before it starts.  `setValidity` refuses
such a window, the three closing operations send the end they are given through
`endNotBeforeStart`, and `insert` takes the bounds as they come.

`endNotBeforeStart` compares instants and may write another one in their place, which it cuts to
whole seconds; a start with a fraction of a second can then be later than the end written.
`windows_sound_always_iff` says exactly when the windows stay sound along a run.

Instants are any linear order, and the two library functions that read and write them are given
by a `Chrono`.
-/

namespace Mwe

/-- How the date library reads and writes instants. -/
structure Chrono (T : Type*) where
  /-- `DateTime::parse_from_rfc3339`, brought to UTC -/
  parseFromRfc3339 : Str → Option T
  /-- `to_rfc3339_opts(Secs, true)`: UTC, cut to whole seconds -/
  toRfc3339Secs : T → Str

/-! ## The table -/

/-- How a page reads: the closed palette of writing styles. -/
inductive PageStyle where
  | prosa | prosaTecnica | lista
  deriving DecidableEq, Repr

/-- A row of `fact_index`. -/
structure FactRow where
  factId : FactId
  wikiId : Str
  sourcePath : Str
  regionStart : Option ℤ := none
  regionEnd : Option ℤ := none
  text : Str
  subjectId : Principal
  subjectExternal : Option Str := none
  slot : Option Str := none
  slotValue : Option Str := none
  allowIds : List Principal := []
  excludedIds : List Principal := []
  senderId : Option Principal := none
  factType : Option Str
  topics : List Str := []
  validFrom : Option Str
  validTo : Option Str
  decayReason : Option Str := none
  successorFactId : Option FactId := none
  supersededAt : Option Str := none
  supersededBy : Option FactId := none
  deletedAt : Option Str := none
  deletedReason : Option Str := none
  lastRecallAt : Option Str := none
  recallCount30d : ℕ := 0
  targetPage : Option Str := none
  style : Option PageStyle := none
  salience : Option Str := none
  sourceRef : Option Str := none
  authoredRefs : List Str := []
  updatedAt : Str

/-- The table `fact_index`. -/
abbrev FactTable := Sql.Table FactRow.factId

/-- A row as `markSuperseded` leaves it. -/
def FactRow.superseded (newFactId : FactId) (closedAt now : Str) (r : FactRow) : FactRow :=
  { r with
    supersededAt := some now
    supersededBy := some newFactId
    updatedAt := now
    validTo := r.validTo.orElse fun _ => some closedAt
    decayReason := r.decayReason.orElse fun _ => some "contradicted".toList }

@[simp] lemma FactRow.factId_superseded (newFactId : FactId) (closedAt now : Str) (r : FactRow) :
    (r.superseded newFactId closedAt now).factId = r.factId := rfl

/-- A row as `closeValidity` leaves it. -/
def FactRow.closed (validTo reason : Str) (successor : Option FactId) (now : Str) (r : FactRow) :
    FactRow :=
  { r with
    validTo := some validTo
    decayReason := some reason
    successorFactId := successor.orElse fun _ => r.successorFactId
    updatedAt := now }

@[simp] lemma FactRow.factId_closed (validTo reason : Str) (successor : Option FactId) (now : Str)
    (r : FactRow) : (r.closed validTo reason successor now).factId = r.factId := rfl

/-- A row as `setValidity` leaves it. -/
def FactRow.edited (validFrom validTo : Option Str) (now : Str) (r : FactRow) : FactRow :=
  { r with validFrom, validTo, updatedAt := now }

@[simp] lemma FactRow.factId_edited (validFrom validTo : Option Str) (now : Str) (r : FactRow) :
    (r.edited validFrom validTo now).factId = r.factId := rfl

/-- A row as `setFactType` leaves it. -/
def FactRow.retyped (factType : Str) (validTo : Option Str) (now : Str) (r : FactRow) : FactRow :=
  { r with factType := some factType, validTo, updatedAt := now }

@[simp] lemma FactRow.factId_retyped (factType : Str) (validTo : Option Str) (now : Str)
    (r : FactRow) : (r.retyped factType validTo now).factId = r.factId := rfl

/-- A fact to insert. -/
structure NewFact where
  factId : FactId
  wikiId : Str
  sourcePath : Str
  regionStart : Option ℤ := none
  regionEnd : Option ℤ := none
  text : Str
  subjectId : Principal
  subjectExternal : Option Str := none
  slot : Option Str := none
  slotValue : Option Str := none
  allowIds : List Principal := []
  excludedIds : List Principal := []
  senderId : Option Principal := none
  factType : Option Str
  topics : List Str := []
  validFrom : Option Str
  validTo : Option Str
  targetPage : Option Str := none
  style : Option PageStyle := none
  salience : Option Str := none
  sourceRef : Option Str := none
  authoredRefs : List Str := []

/-- The row an insert writes. -/
def NewFact.row (fact : NewFact) (now : Str) : FactRow where
  factId := fact.factId
  wikiId := fact.wikiId
  sourcePath := fact.sourcePath
  regionStart := fact.regionStart
  regionEnd := fact.regionEnd
  text := fact.text
  subjectId := fact.subjectId
  subjectExternal := fact.subjectExternal
  slot := fact.slot
  slotValue := fact.slotValue
  allowIds := fact.allowIds
  excludedIds := fact.excludedIds
  senderId := fact.senderId
  factType := fact.factType
  topics := fact.topics
  validFrom := fact.validFrom
  validTo := fact.validTo
  targetPage := fact.targetPage
  style := fact.style
  salience := fact.salience
  sourceRef := fact.sourceRef
  authoredRefs := fact.authoredRefs
  updatedAt := now

@[simp] lemma NewFact.factId_row (fact : NewFact) (now : Str) :
    (fact.row now).factId = fact.factId := rfl

/-! ## Bounds -/

section Bounds

variable {T : Type*} [LinearOrder T] (chrono : Chrono T)

/-- One instant read off a stored bound. -/
def instantOf (bound : Str) : Option T := chrono.parseFromRfc3339 bound

/-- An instant written as a validity bound. -/
def boundFromInstant (t : T) : Str := chrono.toRfc3339Secs t

/-- Whether a validity interval would end before it starts; without two dates there is nothing to
judge. -/
def windowIsInverted (validFrom validTo : Option Str) : Bool :=
  match validFrom.bind (instantOf chrono), validTo.bind (instantOf chrono) with
  | some start, some stop => decide (stop < start)
  | _, _ => false

/-- The end a closure may actually write. -/
def endNotBeforeStart (validFrom : Option Str) (proposedEnd : Str) (closureInstant : T) : Str :=
  match validFrom, validFrom.bind (instantOf chrono) with
  | some startRaw, some start =>
    match instantOf chrono proposedEnd with
    | none => proposedEnd
    | some stop =>
      if start ≤ stop then proposedEnd
      else if start ≤ closureInstant then boundFromInstant chrono closureInstant
      else startRaw
  | _, _ => proposedEnd

/-- The end written in the place of the one proposed is no earlier than the start: where the
proposed end is before the start and the closure is not, the closure is not before the start as a
bound either. -/
def EndStands (validFrom : Option Str) (proposedEnd : Str) (closureInstant : T) : Prop :=
  ∀ start, validFrom.bind (instantOf chrono) = some start →
    ∀ stop, instantOf chrono proposedEnd = some stop → stop < start → start ≤ closureInstant →
      ∀ written, instantOf chrono (boundFromInstant chrono closureInstant) = some written →
        start ≤ written

/-- The end `endNotBeforeStart` gives leaves the window inverted exactly when it writes the closure
and that, as a bound, is before the start. -/
lemma windowIsInverted_endNotBeforeStart {validFrom : Option Str} {proposedEnd : Str}
    {closureInstant : T} :
    windowIsInverted chrono validFrom
        (some (endNotBeforeStart chrono validFrom proposedEnd closureInstant)) = false ↔
      EndStands chrono validFrom proposedEnd closureInstant := by
  rcases validFrom with _ | startRaw
  · simp [windowIsInverted, EndStands]
  cases hstart : instantOf chrono startRaw with
  | none => simp [windowIsInverted, EndStands, hstart]
  | some start =>
    cases hstop : instantOf chrono proposedEnd with
    | none => simp [windowIsInverted, endNotBeforeStart, EndStands, hstart, hstop]
    | some stop =>
      simp only [endNotBeforeStart, Option.bind_some, hstart, hstop]
      split_ifs with hkeep hclosure
      · -- the proposed end is sound
        simp [windowIsInverted, EndStands, hstart, hstop, hkeep]
      · -- the closure is written
        cases hwritten : instantOf chrono (boundFromInstant chrono closureInstant) with
        | none => simp [windowIsInverted, EndStands, hstart, hwritten]
        | some written =>
          simp [windowIsInverted, EndStands, hstart, hstop, hwritten, not_le.mp hkeep, hclosure]
      · -- the window closes where it opens
        simp [windowIsInverted, EndStands, hstart, hstop, hclosure]

end Bounds

/-! ## The operations -/

namespace FactIndex

section Operations

variable {T : Type*} [LinearOrder T] (chrono : Chrono T)

/-- Insert a fact as it is given; `none` is the database error of a key already taken. -/
def insert (facts : FactTable) (fact : NewFact) (now : Str) : Option FactTable :=
  facts.insert (fact.row now)

/-- When the successor of a supersede started being true: the fact index first, then the capture
buffer, whose answer is `staged`. -/
def successorValidFrom (facts : FactTable) (staged : Option Str) (successor : FactId) :
    Option Str :=
  match facts.get? successor with
  | some row => row.validFrom
  | none => staged

/-- When a fact that is about to close started being true. -/
def currentValidFrom (facts : FactTable) (factId : FactId) : Option Str :=
  (facts.get? factId).bind FactRow.validFrom

/-- The end `markSuperseded` proposes: the start of the successor, or else the instant given. -/
def supersededEnd (facts : FactTable) (staged : Option Str) (newFactId : FactId)
    (whenUnstated : T) : Str :=
  (successorValidFrom facts staged newFactId).getD (boundFromInstant chrono whenUnstated)

/-- Mark a fact as superseded: the rows touched, and the table. -/
def markSuperseded (facts : FactTable) (staged : Option Str) (oldFactId newFactId : FactId)
    (whenUnstated : T) (now : Str) : ℕ × FactTable :=
  let closedAt := endNotBeforeStart chrono (currentValidFrom facts oldFactId)
    (supersededEnd chrono facts staged newFactId whenUnstated) whenUnstated
  let sel : FactRow → Bool := fun r =>
    r.factId == oldFactId && r.supersededAt.isNone && r.deletedAt.isNone
  (facts.rows.countP sel, facts.update sel (FactRow.superseded newFactId closedAt now)
    (FactRow.factId_superseded newFactId closedAt now))

/-- A fact's validity fields the moment a closure overwrote them, and the end it wrote. -/
structure ClosedValidity where
  writtenValidTo : Str
  prevValidTo : Option Str
  prevDecayReason : Option Str
  prevSuccessorFactId : Option FactId

/-- The row of a fact that is not tombstoned. -/
def activeRow (facts : FactTable) (factId : FactId) : Option FactRow :=
  (facts.get? factId).filter fun r => r.deletedAt.isNone

/-- Rewrite the row of a fact that is not tombstoned. -/
def updateActive (facts : FactTable) (factId : FactId) (set : FactRow → FactRow)
    (hset : ∀ r, (set r).factId = r.factId) : FactTable :=
  facts.update (fun r => r.factId == factId && r.deletedAt.isNone) set hset

/-- Close a fact's validity window. -/
def closeValidity (facts : FactTable) (factId : FactId) (validTo reason : Str)
    (successor : Option FactId) (whenUnstated : T) (now : Str) :
    Option ClosedValidity × FactTable :=
  match activeRow facts factId with
  | none => (none, facts)
  | some row =>
    let validTo := endNotBeforeStart chrono row.validFrom validTo whenUnstated
    (some { writtenValidTo := validTo, prevValidTo := row.validTo
            prevDecayReason := row.decayReason, prevSuccessorFactId := row.successorFactId },
      updateActive facts factId (FactRow.closed validTo reason successor now)
        (FactRow.factId_closed validTo reason successor now))

/-- What a validity edit did. -/
inductive ValidityEdit where
  | applied (prevValidFrom prevValidTo : Option Str)
  | noSuchRow
  | endBeforeStart

/-- Correct a fact's validity interval; an omitted bound keeps its value. -/
def setValidity (facts : FactTable) (factId : FactId) (validFrom validTo : Option Str)
    (now : Str) : ValidityEdit × FactTable :=
  match activeRow facts factId with
  | none => (.noSuchRow, facts)
  | some row =>
    let newFrom := validFrom.orElse fun _ => row.validFrom
    let newTo := validTo.orElse fun _ => row.validTo
    if windowIsInverted chrono newFrom newTo then (.endBeforeStart, facts)
    else
      (.applied row.validFrom row.validTo,
        updateActive facts factId (FactRow.edited newFrom newTo now)
          (FactRow.factId_edited newFrom newTo now))

/-- A fact's kind and end the moment they were corrected. -/
structure PrevKind where
  prevFactType : Option Str
  prevValidTo : Option Str

/-- Correct a fact's kind, and give it an end at the same time. -/
def setFactType (facts : FactTable) (factId : FactId) (factType : Str) (validTo : Option Str)
    (whenUnstated : T) (now : Str) : Option PrevKind × FactTable :=
  match activeRow facts factId with
  | none => (none, facts)
  | some row =>
    let newTo := match validTo with
      | some v => some (endNotBeforeStart chrono row.validFrom v whenUnstated)
      | none => row.validTo
    (some { prevFactType := row.factType, prevValidTo := row.validTo },
      updateActive facts factId (FactRow.retyped factType newTo now)
        (FactRow.factId_retyped factType newTo now))

end Operations

/-! ## Runs -/

section Runs

variable {T : Type*} [LinearOrder T] (chrono : Chrono T)

/-- A call of one of the operations, with the clock it reads and, for a supersede, what the
capture buffer answers. -/
inductive Event (T : Type*) where
  | insert (fact : NewFact) (now : Str)
  | markSuperseded (staged : Option Str) (oldFactId newFactId : FactId) (whenUnstated : T)
      (now : Str)
  | closeValidity (factId : FactId) (validTo reason : Str) (successor : Option FactId)
      (whenUnstated : T) (now : Str)
  | setValidity (factId : FactId) (validFrom validTo : Option Str) (now : Str)
  | setFactType (factId : FactId) (factType : Str) (validTo : Option Str) (whenUnstated : T)
      (now : Str)

/-- One operation; an insert that fails leaves the table as it was. -/
def step (facts : FactTable) : Event T → Option FactTable
  | .insert fact now => some ((insert facts fact now).getD facts)
  | .markSuperseded staged oldFactId newFactId whenUnstated now =>
    some (markSuperseded chrono facts staged oldFactId newFactId whenUnstated now).2
  | .closeValidity factId validTo reason successor whenUnstated now =>
    some (closeValidity chrono facts factId validTo reason successor whenUnstated now).2
  | .setValidity factId validFrom validTo now =>
    some (setValidity chrono facts factId validFrom validTo now).2
  | .setFactType factId factType validTo whenUnstated now =>
    some (setFactType chrono facts factId factType validTo whenUnstated now).2

/-- The window of a row does not end before it starts. -/
def WindowSound (r : FactRow) : Prop :=
  ∀ start stop, r.validFrom.bind (instantOf chrono) = some start →
    r.validTo.bind (instantOf chrono) = some stop → start ≤ stop

/-- Every window is sound. -/
def WindowsSound (facts : FactTable) : Prop := ∀ r ∈ facts, WindowSound chrono r

/-- What an operation needs to keep the windows sound: an inserted window is not inverted, and the
end of a window that is closed stands. -/
def WindowKept (facts : FactTable) : Event T → Prop
  | .insert fact _ =>
    (∀ r ∈ facts, r.factId ≠ fact.factId) →
      windowIsInverted chrono fact.validFrom fact.validTo = false
  | .markSuperseded staged oldFactId newFactId whenUnstated _ =>
    ∀ r ∈ facts, r.factId = oldFactId → r.supersededAt = none → r.deletedAt = none →
      r.validTo = none →
        EndStands chrono r.validFrom (supersededEnd chrono facts staged newFactId whenUnstated)
          whenUnstated
  | .closeValidity factId validTo _ _ whenUnstated _ =>
    ∀ r ∈ facts, r.factId = factId → r.deletedAt = none →
      EndStands chrono r.validFrom validTo whenUnstated
  | .setFactType factId _ (some validTo) whenUnstated _ =>
    ∀ r ∈ facts, r.factId = factId → r.deletedAt = none →
      EndStands chrono r.validFrom validTo whenUnstated
  | _ => True

lemma windowSound_iff {r : FactRow} :
    WindowSound chrono r ↔ windowIsInverted chrono r.validFrom r.validTo = false := by
  unfold WindowSound windowIsInverted
  cases r.validFrom.bind (instantOf chrono) <;> cases r.validTo.bind (instantOf chrono) <;> simp

/-- A closed row is sound exactly when its end stands. -/
lemma windowSound_close_iff {r : FactRow} {validFrom : Option Str} {proposedEnd : Str} {t : T}
    (hfrom : r.validFrom = validFrom)
    (hto : r.validTo = some (endNotBeforeStart chrono validFrom proposedEnd t)) :
    WindowSound chrono r ↔ EndStands chrono validFrom proposedEnd t := by
  rw [windowSound_iff, hfrom, hto, windowIsInverted_endNotBeforeStart]

variable {chrono} {facts facts' : FactTable}

lemma activeRow_eq_some_iff {factId : FactId} {r : FactRow} :
    activeRow facts factId = some r ↔ r ∈ facts ∧ r.factId = factId ∧ r.deletedAt = none := by
  rw [activeRow, Option.filter_eq_some_iff, Sql.Table.get?_eq_some_iff]
  simp [and_assoc]

lemma activeRow_eq_none {factId : FactId} (h : activeRow facts factId = none) {r : FactRow}
    (hr : r ∈ facts) (hid : r.factId = factId) : r.deletedAt ≠ none := by
  intro hdel
  have hsome : activeRow facts factId = some r := activeRow_eq_some_iff.mpr ⟨hr, hid, hdel⟩
  cases h.symm.trans hsome

/-- Rewriting the active row of a fact keeps every window sound exactly when the row rewritten is
sound. -/
lemma windowsSound_updateActive_iff {factId : FactId} {row : FactRow} {set : FactRow → FactRow}
    {hset : ∀ r, (set r).factId = r.factId} (hs : WindowsSound chrono facts)
    (hrow : activeRow facts factId = some row) :
    WindowsSound chrono (updateActive facts factId set hset) ↔ WindowSound chrono (set row) := by
  obtain ⟨hmem, hid, hdel⟩ := activeRow_eq_some_iff.mp hrow
  unfold WindowsSound updateActive
  rw [Sql.Table.forall_update_iff hs]
  constructor
  · intro h
    exact h row hmem (by simp [hid, hdel])
  · intro h r hr hsel
    simp only [Bool.and_eq_true, beq_iff_eq] at hsel
    rw [Sql.Table.eq_of_key_eq hr hmem (hsel.1.trans hid.symm)]
    exact h

/-- The condition on the active row of a fact is the condition on every row that is updated. -/
lemma forall_active_iff {factId : FactId} {row : FactRow} {P : FactRow → Prop}
    (hrow : activeRow facts factId = some row) :
    (∀ r ∈ facts, r.factId = factId → r.deletedAt = none → P r) ↔ P row := by
  obtain ⟨hmem, hid, hdel⟩ := activeRow_eq_some_iff.mp hrow
  constructor
  · intro h
    exact h row hmem hid hdel
  · intro h r hr hrid _
    rw [Sql.Table.eq_of_key_eq hr hmem (hrid.trans hid.symm)]
    exact h

lemma windowsSound_insert_iff {fact : NewFact} {now : Str} (hs : WindowsSound chrono facts) :
    WindowsSound chrono ((insert facts fact now).getD facts) ↔
      WindowKept chrono facts (.insert fact now) := by
  simp only [WindowKept]
  cases hins : insert facts fact now with
  | none =>
    apply iff_of_true hs
    intro hfree
    exact absurd hins (Sql.Table.insert_ne_none hfree)
  | some inserted =>
    have hfree : ∀ r ∈ facts, r.factId ≠ fact.factId := (Sql.Table.insert_eq_some_iff.mp hins).1
    have hmem : ∀ {x}, x ∈ inserted ↔ x ∈ facts ∨ x = _ := Sql.Table.mem_of_insert hins
    rw [imp_iff_right hfree, Option.getD_some]
    constructor
    · intro h
      exact (windowSound_iff chrono).mp (h _ (hmem.mpr (.inr rfl)))
    · intro h r hr
      rcases hmem.mp hr with hr | rfl
      · exact hs r hr
      · exact (windowSound_iff chrono).mpr h

lemma windowsSound_markSuperseded_iff {staged : Option Str} {oldFactId newFactId : FactId}
    {whenUnstated : T} {now : Str} (hs : WindowsSound chrono facts) :
    WindowsSound chrono
        (markSuperseded chrono facts staged oldFactId newFactId whenUnstated now).2 ↔
      WindowKept chrono facts (.markSuperseded staged oldFactId newFactId whenUnstated now) := by
  simp only [WindowKept, markSuperseded, WindowsSound]
  rw [Sql.Table.forall_update_iff hs]
  apply forall₂_congr
  intro r hr
  by_cases hid : r.factId = oldFactId
  · have hcurrent : currentValidFrom facts oldFactId = r.validFrom := by
      rw [currentValidFrom, Sql.Table.get?_eq_some_iff.mpr ⟨hr, hid⟩, Option.bind_some]
    simp only [hid, hcurrent, Bool.and_eq_true, beq_self_eq_true, Option.isNone_iff_eq_none,
      true_and, and_imp, true_implies]
    apply imp_congr_right
    intro _
    apply imp_congr_right
    intro _
    cases hto : r.validTo with
    | none =>
      rw [imp_iff_right rfl]
      apply windowSound_close_iff
      · rfl
      · simp [FactRow.superseded, hto]
    | some validTo =>
      -- an end written before is kept
      apply iff_of_true
      · intro start stop hstart hstop
        apply hs r hr start stop hstart
        simpa [FactRow.superseded, hto] using hstop
      · intro h
        cases h
  · simp [hid]

lemma windowsSound_closeValidity_iff {factId : FactId} {validTo reason : Str}
    {successor : Option FactId} {whenUnstated : T} {now : Str} (hs : WindowsSound chrono facts) :
    WindowsSound chrono
        (closeValidity chrono facts factId validTo reason successor whenUnstated now).2 ↔
      WindowKept chrono facts (.closeValidity factId validTo reason successor whenUnstated now) := by
  simp only [WindowKept, closeValidity]
  cases hrow : activeRow facts factId with
  | none =>
    apply iff_of_true hs
    intro r hr hid hdel
    exact absurd hdel (activeRow_eq_none hrow hr hid)
  | some row =>
    rw [forall_active_iff hrow]
    rw [windowsSound_updateActive_iff hs hrow]
    exact windowSound_close_iff chrono rfl rfl

lemma windowsSound_setValidity {factId : FactId} {validFrom validTo : Option Str} {now : Str}
    (hs : WindowsSound chrono facts) :
    WindowsSound chrono (setValidity chrono facts factId validFrom validTo now).2 := by
  simp only [setValidity]
  cases hrow : activeRow facts factId with
  | none => exact hs
  | some row =>
    simp only
    split_ifs with hinverted
    · exact hs
    · rw [windowsSound_updateActive_iff hs hrow, windowSound_iff]
      exact Bool.eq_false_iff.mpr hinverted

lemma windowsSound_setFactType_iff {factId : FactId} {factType : Str} {validTo : Option Str}
    {whenUnstated : T} {now : Str} (hs : WindowsSound chrono facts) :
    WindowsSound chrono (setFactType chrono facts factId factType validTo whenUnstated now).2 ↔
      WindowKept chrono facts (.setFactType factId factType validTo whenUnstated now) := by
  simp only [setFactType]
  cases hrow : activeRow facts factId with
  | none =>
    apply iff_of_true hs
    cases validTo with
    | none => trivial
    | some validTo =>
      intro r hr hid hdel
      exact absurd hdel (activeRow_eq_none hrow hr hid)
  | some row =>
    rw [windowsSound_updateActive_iff hs hrow]
    cases validTo with
    | none =>
      -- the end is left as it was
      apply iff_of_true _ trivial
      obtain ⟨hmem, -, -⟩ := activeRow_eq_some_iff.mp hrow
      exact hs row hmem
    | some validTo =>
      simp only [WindowKept]
      rw [forall_active_iff hrow]
      exact windowSound_close_iff chrono rfl rfl

/-- An operation keeps the windows sound exactly when its condition holds. -/
lemma windowsSound_step_iff {e : Event T} (h : step chrono facts e = some facts')
    (hs : WindowsSound chrono facts) :
    WindowsSound chrono facts' ↔ WindowKept chrono facts e := by
  cases e with
  | insert fact now =>
    obtain rfl := Option.some.inj h
    exact windowsSound_insert_iff hs
  | markSuperseded staged oldFactId newFactId whenUnstated now =>
    obtain rfl := Option.some.inj h
    exact windowsSound_markSuperseded_iff hs
  | closeValidity factId validTo reason successor whenUnstated now =>
    obtain rfl := Option.some.inj h
    exact windowsSound_closeValidity_iff hs
  | setValidity factId validFrom validTo now =>
    obtain rfl := Option.some.inj h
    exact iff_of_true (windowsSound_setValidity hs) trivial
  | setFactType factId factType validTo whenUnstated now =>
    obtain rfl := Option.some.inj h
    exact windowsSound_setFactType_iff hs

/-- The windows are sound in every state of a run exactly when each operation in it kept them:
every insert was given a window that is not inverted, and every end that was written stands. -/
theorem windows_sound_always_iff {trace : List (FactTable × Event T)}
    (hrun : Run (step chrono) facts trace facts') (hs : WindowsSound chrono facts) :
    Run.Always (WindowsSound chrono) trace facts' ↔
      ∀ p ∈ trace, WindowKept chrono p.1 p.2 :=
  hrun.always_iff hs windowsSound_step_iff

end Runs

/-! ## A start with a fraction of a second -/

/-- The instants below, in milliseconds from the epoch, read and written as the date library
does. -/
def sampleChrono : Chrono ℤ where
  parseFromRfc3339 bound :=
    if bound = "2026-06-10T10:00:00.500Z".toList then some 1781085600500
    else if bound = "2026-06-10T10:00:00Z".toList then some 1781085600000
    else if bound = "2026-06-01T00:00:00Z".toList then some 1780272000000
    else none
  toRfc3339Secs t :=
    if t < 1781085600000 then "2026-06-10T09:59:59Z".toList else "2026-06-10T10:00:00Z".toList

/-- A fact that starts half a second past ten. -/
def halfPast : NewFact where
  factId := ⟨"018f1234-5678-7abc-9def-0123456789ab".toList, by decide⟩
  wikiId := "alice".toList
  sourcePath := "wikis/alice/notes.md".toList
  text := "The shop is open.".toList
  subjectId := .user "alice".toList
  factType := none
  validFrom := some "2026-06-10T10:00:00.500Z".toList
  validTo := none

/-- The fact is inserted, and closed 700 milliseconds past ten with an end before its start. -/
def closedTooEarly : List (Event ℤ) :=
  [.insert halfPast [], .closeValidity halfPast.factId "2026-06-01T00:00:00Z".toList
    "retracted".toList none 1781085600700 []]

/-- The same, closed with an end on its start. -/
def closedOnStart : List (Event ℤ) :=
  [.insert halfPast [], .closeValidity halfPast.factId "2026-06-10T10:00:00.500Z".toList
    "retracted".toList none 1781085600700 []]

lemma windowsSound_empty : WindowsSound sampleChrono (Sql.Table.empty FactRow.factId) := by
  intro r hr
  exact absurd hr (Sql.Table.not_mem_empty r)

theorem windows_sound_always_iff_closedOnStart :
    ∃ trace facts, closedOnStart.foldlM (step sampleChrono) (Sql.Table.empty _) = some facts ∧
      (Run.Always (WindowsSound sampleChrono) trace facts ↔
        ∀ p ∈ trace, WindowKept sampleChrono p.1 p.2) := by
  obtain ⟨facts, hfacts⟩ :
      ∃ facts, closedOnStart.foldlM (step sampleChrono) (Sql.Table.empty _) = some facts :=
    ⟨_, rfl⟩
  obtain ⟨trace, hrun⟩ := Run.of_foldlM hfacts
  exact ⟨trace, facts, hfacts, windows_sound_always_iff hrun windowsSound_empty⟩

/-- The closure cut to whole seconds is before the start, and is written. -/
theorem closure_inverts_window :
    ∃ trace facts, Run (step sampleChrono) (Sql.Table.empty _) trace facts ∧
      ¬ WindowsSound sampleChrono facts := by
  obtain ⟨facts, hfacts, r, hr, hinverted⟩ :
      ∃ facts, closedTooEarly.foldlM (step sampleChrono) (Sql.Table.empty _) = some facts ∧
        ∃ r ∈ facts.rows, windowIsInverted sampleChrono r.validFrom r.validTo = true :=
    ⟨_, rfl, _, List.mem_cons_self, by decide +kernel⟩
  obtain ⟨trace, hrun⟩ := Run.of_foldlM hfacts
  refine ⟨trace, facts, hrun, ?_⟩
  intro hs
  have hsound := (windowSound_iff sampleChrono).mp (hs r hr)
  cases hsound.symm.trans hinverted

end FactIndex

end Mwe
