import MweCore.Acl
import MweCore.FactIndex.Validity

/-!
# Who may read a fact, and whether there is one

The operations of the fact index beside those on the validity window: the change of the access
lists, the tombstone, and the insert that leaves a row that is there alone.
-/

namespace Mwe

/-! ## Rows -/

/-- The access record of a stored fact. -/
def FactRow.acl (r : FactRow) : RegionAcl where
  subject := r.subjectId
  allow := r.allowIds
  excluded := r.excludedIds
  sender := r.senderId

/-- Whether a fact stands: neither superseded nor tombstoned. -/
def FactRow.isActive (r : FactRow) : Bool := r.supersededAt.isNone && r.deletedAt.isNone

/-- A row as `setAcl` leaves it; the exclusions move only when they are given. -/
def FactRow.withAcl (subject : Principal) (allow : List Principal) (sender : Option Principal)
    (excluded : Option (List Principal)) (now : Str) (r : FactRow) : FactRow :=
  { r with
    subjectId := subject
    allowIds := allow
    senderId := sender
    excludedIds := (excluded.map List.eraseDups).getD r.excludedIds
    updatedAt := now }

@[simp] lemma FactRow.factId_withAcl (subject : Principal) (allow : List Principal)
    (sender : Option Principal) (excluded : Option (List Principal)) (now : Str) (r : FactRow) :
    (r.withAcl subject allow sender excluded now).factId = r.factId := rfl

/-- A row as `restrictTo` leaves it. -/
def FactRow.restricted (excluded readers : List Principal) (now : Str) (r : FactRow) : FactRow :=
  { r with excludedIds := excluded, allowIds := readers, updatedAt := now }

@[simp] lemma FactRow.factId_restricted (excluded readers : List Principal) (now : Str)
    (r : FactRow) : (r.restricted excluded readers now).factId = r.factId := rfl

/-- A row as `inheritAllow` leaves it. -/
def FactRow.withAllow (allow : List Principal) (now : Str) (r : FactRow) : FactRow :=
  { r with allowIds := allow, updatedAt := now }

@[simp] lemma FactRow.factId_withAllow (allow : List Principal) (now : Str) (r : FactRow) :
    (r.withAllow allow now).factId = r.factId := rfl

/-- A row as `stampDecayReason` leaves it. -/
def FactRow.stamped (reason now : Str) (r : FactRow) : FactRow :=
  { r with decayReason := some reason, updatedAt := now }

@[simp] lemma FactRow.factId_stamped (reason now : Str) (r : FactRow) :
    (r.stamped reason now).factId = r.factId := rfl

/-- A row as `markForgotten` leaves it. -/
def FactRow.forgotten (reason now : Str) (r : FactRow) : FactRow :=
  { r with deletedAt := some now, deletedReason := some reason, updatedAt := now }

@[simp] lemma FactRow.factId_forgotten (reason now : Str) (r : FactRow) :
    (r.forgotten reason now).factId = r.factId := rfl

/-! ## Operations -/

namespace FactIndex

/-- Whether the door of a page stands open to a reader: it keeps nothing from anybody, or the
reader reads a fact of it. -/
def pageVisibleTo (facts : FactTable) (sourcePath senderId : Str) (senderGroups : List Str) : Bool :=
  let rows := facts.rows.filter fun r => r.sourcePath = sourcePath && r.isActive
  rows.isEmpty || rows.any fun r => rowReadableBy r.acl senderId senderGroups

/-- Insert a fact unless its id is taken. -/
def insertIfAbsent (facts : FactTable) (fact : NewFact) (now : Str) : FactTable :=
  Sql.Table.insertIfAbsent facts (fact.row now)

/-- A fact's access lists the moment they were changed. -/
structure PrevAcl where
  prevSubjectId : Principal
  prevAllowIds : List Principal
  prevSenderId : Option Principal

/-- The access lists of a row. -/
def prevAcl (row : FactRow) : PrevAcl where
  prevSubjectId := row.subjectId
  prevAllowIds := row.allowIds
  prevSenderId := row.senderId

/-- Change the subject, the audience and the author of a fact. -/
def setAcl (facts : FactTable) (factId : FactId) (subject : Principal) (allow : List Principal)
    (sender : Option Principal) (excluded : Option (List Principal)) (now : Str) :
    Option PrevAcl × FactTable :=
  match activeRow facts factId with
  | none => (none, facts)
  | some row =>
    (some (prevAcl row),
      updateActive facts factId (FactRow.withAcl subject allow sender excluded now)
        (FactRow.factId_withAcl subject allow sender excluded now))

/-- Keep a fact from further people, and freeze its readers. -/
def restrictTo (facts : FactTable) (factId : FactId) (excluded readers : List Principal)
    (now : Str) : Option PrevAcl × FactTable :=
  match activeRow facts factId with
  | none => (none, facts)
  | some row =>
    let union := (row.excludedIds ++ excluded).eraseDups
    (some (prevAcl row), updateActive facts factId (FactRow.restricted union readers now)
      (FactRow.factId_restricted union readers now))

/-- Replace the audience of a fact. -/
def inheritAllow (facts : FactTable) (factId : FactId) (allow : List Principal) (now : Str) :
    Bool × FactTable :=
  ((activeRow facts factId).isSome, updateActive facts factId (FactRow.withAllow allow now)
    (FactRow.factId_withAllow allow now))

/-- Say why a fact was closed. -/
def stampDecayReason (facts : FactTable) (factId : FactId) (reason now : Str) : FactTable :=
  updateActive facts factId (FactRow.stamped reason now) (FactRow.factId_stamped reason now)

/-- Tombstone a fact: the rows touched, and the table. -/
def markForgotten (facts : FactTable) (factId : FactId) (reason now : Str) : ℕ × FactTable :=
  (facts.rows.countP fun r => r.factId == factId && r.deletedAt.isNone,
    updateActive facts factId (FactRow.forgotten reason now)
      (FactRow.factId_forgotten reason now))

/-! ### Looking a fact up after an update -/

lemma activeRow_eq_some_of_restrictTo {facts facts' : FactTable} {factId : FactId}
    {excluded readers : List Principal} {now : Str} {prev : PrevAcl}
    (h : restrictTo facts factId excluded readers now = (some prev, facts')) :
    ∃ row, activeRow facts factId = some row ∧ facts' = updateActive facts factId
      (FactRow.restricted (row.excludedIds ++ excluded).eraseDups readers now)
      (FactRow.factId_restricted _ readers now) := by
  unfold restrictTo at h
  split at h
  · cases h
  · next row hrow => exact ⟨row, hrow, (Prod.mk.inj h).2.symm⟩

lemma get?_updateActive (facts : FactTable) (factId : FactId) (set : FactRow → FactRow)
    (hset : ∀ r, (set r).factId = r.factId) (id : FactId) :
    (updateActive facts factId set hset).get? id = (facts.get? id).map fun r =>
      if id = factId ∧ r.deletedAt = none then set r else r := by
  unfold updateActive
  rw [Sql.Table.get?_update]
  cases hget : facts.get? id with
  | none => rfl
  | some r =>
    obtain ⟨-, rfl⟩ := Sql.Table.get?_eq_some_iff.mp hget
    simp

/-- What a fact says once it was kept from further people. -/
lemma get?_of_restrictTo {facts facts' : FactTable} {row : FactRow}
    {excluded readers : List Principal} {now : Str} {prev : PrevAcl}
    (h : restrictTo facts row.factId excluded readers now = (some prev, facts'))
    (hrow : facts.get? row.factId = some row) :
    facts'.get? row.factId =
      some (row.restricted (row.excludedIds ++ excluded).eraseDups readers now) := by
  obtain ⟨row', hactive, rfl⟩ := activeRow_eq_some_of_restrictTo h
  obtain ⟨hmem, hid, hlive⟩ := activeRow_eq_some_iff.mp hactive
  obtain rfl : row = row' :=
    Option.some.inj (hrow.symm.trans (Sql.Table.get?_eq_some_iff.mpr ⟨hmem, hid⟩))
  rw [get?_updateActive, hrow, Option.map_some, if_pos ⟨rfl, hlive⟩]

end FactIndex

end Mwe
