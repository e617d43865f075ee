import MweCore.FactIndex.Access

/-!
# Taking a retirement back

`markSuperseded` retires a fact: it points the row at its successor, and closes the window of the
row where that is open.  `clearSupersede` takes the pointer back, unless the row has another
successor by now, and leaves the window closed.

`undo_restores_iff` says that a retirement taken back leaves the row as it was, its stamp aside,
exactly when its window was closed and its reason recorded before.  `undone_fact_stays_closed` is a
fact that was open.
-/

namespace Mwe

open Sql

/-- A row as `clearSupersede` leaves it. -/
def FactRow.cleared (now : Str) (r : FactRow) : FactRow :=
  { r with supersededAt := none, supersededBy := none, updatedAt := now }

@[simp] lemma FactRow.factId_cleared (now : Str) (r : FactRow) :
    (r.cleared now).factId = r.factId := rfl

namespace FactIndex

/-- Clear the supersede chain of a row that the given fact still supersedes: the rows touched, and
the table. -/
def clearSupersede (facts : FactTable) (factId expectedSupersededBy : FactId) (now : Str) :
    ℕ × FactTable :=
  let sel : FactRow → Bool := fun r =>
    r.factId == factId && r.supersededBy == some expectedSupersededBy && r.deletedAt.isNone
  (facts.rows.countP sel, facts.update sel (FactRow.cleared now) (FactRow.factId_cleared now))

section

variable {T : Type*} [LinearOrder T] (chrono : Chrono T)

/-- The table after a fact is retired for another one, and the retirement taken back: the rows each
statement touched, and the table. -/
def retireAndUndo (facts : FactTable) (staged : Option Str) (old new : FactId) (whenUnstated : T)
    (now now' : Str) : ℕ × ℕ × FactTable :=
  let retired := markSuperseded chrono facts staged old new whenUnstated now
  let undone := clearSupersede retired.2 old new now'
  (retired.1, undone.1, undone.2)

/-- What undoing a retirement is for. -/
structure UndoExact (facts : FactTable) (staged : Option Str) (old new : FactId) (whenUnstated : T)
    (now now' : Str) : Prop where
  /-- an active row that was retired and taken back is what it was, its stamp aside -/
  restores : ∀ row, facts.get? old = some row → row.isActive = true →
    (retireAndUndo chrono facts staged old new whenUnstated now now').1 = 1 →
    (retireAndUndo chrono facts staged old new whenUnstated now now').2.1 = 1 →
    (retireAndUndo chrono facts staged old new whenUnstated now now').2.2.get? old =
      some { row with updatedAt := now' }
  /-- whatever was retired since, only a row whose successor is the one named is touched -/
  touches : ∀ (later : FactTable) (row : FactRow), row ∈ later →
    ¬ (row.factId = old ∧ row.supersededBy = some new) →
    (clearSupersede later old new now').2.get? row.factId = some row

/-- The active fact has no window to close, and no successor on record. -/
def ClosedBefore (facts : FactTable) (old : FactId) : Prop :=
  ∀ row, facts.get? old = some row → row.isActive = true →
    row.validTo.isSome = true ∧ row.decayReason.isSome = true ∧ row.supersededBy = none

/-! ## One row -/

/-- A statement that picks one row by its key touches one row. -/
lemma countP_of_get? {facts : FactTable} {id : FactId} {row : FactRow} {sel : FactRow → Bool}
    (hget : facts.get? id = some row) (hrow : sel row = true)
    (hsel : ∀ r, sel r = true → r.factId = id) : facts.rows.countP sel = 1 := by
  obtain ⟨hmem, hid⟩ := Table.get?_eq_some_iff.mp hget
  have hpicked : facts.rows.filter sel = facts.rows.filter (fun r => r.factId = id) := by
    refine List.filter_congr fun r hr => ?_
    rw [Bool.eq_iff_iff, decide_eq_true_iff]
    refine ⟨hsel r, fun hrid => ?_⟩
    rwa [Table.eq_of_key_eq hr hmem (hrid.trans hid.symm)]
  have hcount : (facts.rows.map FactRow.factId).count id = 1 :=
    List.count_eq_one_of_mem facts.nodup (hid ▸ List.mem_map_of_mem hmem)
  rw [List.countP_eq_length_filter, hpicked, ← List.countP_eq_length_filter, ← hcount,
    List.count, List.countP_map]
  refine List.countP_congr fun r _ => ?_
  simp

variable {facts : FactTable} {staged : Option Str} {old new : FactId} {whenUnstated : T}
  {now now' : Str} {row : FactRow}

/-- An active fact is retired. -/
lemma retired_of_active (hget : facts.get? old = some row) (hactive : row.isActive = true) :
    ∃ closedAt, (markSuperseded chrono facts staged old new whenUnstated now).1 = 1 ∧
      (markSuperseded chrono facts staged old new whenUnstated now).2.get? old =
        some (row.superseded new closedAt now) := by
  have hid := (Table.get?_eq_some_iff.mp hget).2
  obtain ⟨hat, hdeleted⟩ : row.supersededAt.isNone = true ∧ row.deletedAt.isNone = true :=
    Bool.and_eq_true_iff.mp hactive
  refine ⟨endNotBeforeStart chrono (currentValidFrom facts old)
    (supersededEnd chrono facts staged new whenUnstated) whenUnstated, ?_, ?_⟩
  · refine countP_of_get? hget ?_ fun r hr => ?_
    · simp only [hid, hat, hdeleted, beq_self_eq_true, Bool.and_self]
    · simp only [Bool.and_eq_true, beq_iff_eq] at hr
      exact hr.1.1
  · rw [markSuperseded, Table.get?_update, hget, Option.map_some, if_pos]
    simp only [hid, hat, hdeleted, beq_self_eq_true, Bool.and_self]

/-- A row the fact still supersedes is cleared. -/
lemma cleared_of_superseded (hget : facts.get? old = some row)
    (hby : row.supersededBy = some new) (hdeleted : row.deletedAt = none) :
    (clearSupersede facts old new now').1 = 1 ∧
      (clearSupersede facts old new now').2.get? old = some (row.cleared now') := by
  have hid := (Table.get?_eq_some_iff.mp hget).2
  constructor
  · refine countP_of_get? hget ?_ fun r hr => ?_
    · simp only [hid, hby, hdeleted, beq_self_eq_true, Option.isNone_none, Bool.and_self]
    · simp only [Bool.and_eq_true, beq_iff_eq] at hr
      exact hr.1.1
  · rw [clearSupersede, Table.get?_update, hget, Option.map_some, if_pos]
    simp only [hid, hby, hdeleted, beq_self_eq_true, Option.isNone_none, Bool.and_self]

/-- Both statements touch the row of an active fact, and leave it with its window closed. -/
lemma undone_of_active (hget : facts.get? old = some row) (hactive : row.isActive = true) :
    ∃ closedAt, (retireAndUndo chrono facts staged old new whenUnstated now now').1 = 1 ∧
      (retireAndUndo chrono facts staged old new whenUnstated now now').2.1 = 1 ∧
      (retireAndUndo chrono facts staged old new whenUnstated now now').2.2.get? old =
        some ((row.superseded new closedAt now).cleared now') := by
  obtain ⟨closedAt, hone, hretired⟩ :
      ∃ closedAt, (markSuperseded chrono facts staged old new whenUnstated now).1 = 1 ∧
        (markSuperseded chrono facts staged old new whenUnstated now).2.get? old =
          some (row.superseded new closedAt now) := retired_of_active chrono hget hactive
  have hdeleted : row.deletedAt = none :=
    Option.isNone_iff_eq_none.mp (Bool.and_eq_true_iff.mp hactive).2
  have hundone : (clearSupersede _ old new now').1 = 1 ∧ _ :=
    cleared_of_superseded hretired rfl hdeleted
  exact ⟨closedAt, hone, hundone.1, hundone.2⟩

/-- The row is what it was when there was nothing to close. -/
lemma cleared_superseded_iff {closedAt : Str} (hactive : row.isActive = true) :
    (row.superseded new closedAt now).cleared now' = { row with updatedAt := now' } ↔
      row.validTo.isSome = true ∧ row.decayReason.isSome = true ∧ row.supersededBy = none := by
  have hat : row.supersededAt = none :=
    Option.isNone_iff_eq_none.mp (Bool.and_eq_true_iff.mp hactive).1
  constructor
  · intro h
    have hto : (row.validTo.orElse fun _ => some closedAt) = row.validTo :=
      congrArg FactRow.validTo h
    have hreason : (row.decayReason.orElse fun _ => some "contradicted".toList) =
        row.decayReason := congrArg FactRow.decayReason h
    have hby : none = row.supersededBy := congrArg FactRow.supersededBy h
    refine ⟨?_, ?_, hby.symm⟩
    · rw [← hto]
      cases row.validTo <;> rfl
    · rw [← hreason]
      cases row.decayReason <;> rfl
  · rintro ⟨hto, hreason, hby⟩
    obtain ⟨v, hv⟩ := Option.isSome_iff_exists.mp hto
    obtain ⟨d, hd⟩ := Option.isSome_iff_exists.mp hreason
    simp [FactRow.superseded, FactRow.cleared, hat, hby, hv, hd]

/-- A row that does not name the successor stays as it is. -/
lemma get?_clearSupersede_of_mem (hmem : row ∈ facts)
    (hother : ¬ (row.factId = old ∧ row.supersededBy = some new)) :
    (clearSupersede facts old new now').2.get? row.factId = some row := by
  rw [clearSupersede, Table.get?_update, Table.get?_eq_some_iff.mpr ⟨hmem, rfl⟩, Option.map_some,
    if_neg]
  simp only [Bool.and_eq_true, beq_iff_eq]
  exact fun h => hother h.1

/-- Undoing a retirement restores the fact exactly when there was nothing to close. -/
theorem undo_restores_iff (facts : FactTable) (staged : Option Str) (old new : FactId)
    (whenUnstated : T) (now now' : Str) :
    UndoExact chrono facts staged old new whenUnstated now now' ↔ ClosedBefore facts old := by
  constructor
  · intro h row hget hactive
    obtain ⟨closedAt, hretired, hundone, hrow⟩ :
        ∃ closedAt, (retireAndUndo chrono facts staged old new whenUnstated now now').1 = 1 ∧
          (retireAndUndo chrono facts staged old new whenUnstated now now').2.1 = 1 ∧
          (retireAndUndo chrono facts staged old new whenUnstated now now').2.2.get? old =
            some ((row.superseded new closedAt now).cleared now') :=
      undone_of_active chrono hget hactive
    have hback := h.restores row hget hactive hretired hundone
    rw [hrow, Option.some.injEq] at hback
    exact (cleared_superseded_iff hactive).mp hback
  · intro h
    refine ⟨fun row hget hactive _ _ => ?_, fun later row hmem => get?_clearSupersede_of_mem hmem⟩
    obtain ⟨closedAt, -, -, hrow⟩ :
        ∃ closedAt, (retireAndUndo chrono facts staged old new whenUnstated now now').1 = 1 ∧
          (retireAndUndo chrono facts staged old new whenUnstated now now').2.1 = 1 ∧
          (retireAndUndo chrono facts staged old new whenUnstated now now').2.2.get? old =
            some ((row.superseded new closedAt now).cleared now') :=
      undone_of_active chrono hget hactive
    rw [hrow, Option.some.injEq]
    exact (cleared_superseded_iff hactive).mpr (h row hget hactive)

end

/-! ## A fact that was open -/

/-- A fact without an end. -/
def openFact : FactRow where
  factId := ⟨"018f1234-5678-7abc-9def-0123456789ab".toList, isFactId_ab⟩
  wikiId := "anna".toList
  sourcePath := "wikis/anna/casa.md".toList
  text := "Anna lives in Turin".toList
  subjectId := .user "anna".toList
  factType := none
  validFrom := none
  validTo := none
  updatedAt := "2026-01-02T00:00:00Z".toList

/-- The fact that stands in its place for a while. -/
def openFactSuccessor : FactId :=
  ⟨"018f1234-5678-7abc-9def-0123456789ac".toList, isFactId_ac⟩

/-- A fact that was open stays closed when its retirement is taken back. -/
theorem undone_fact_stays_closed :
    ¬ UndoExact sampleChrono ⟨[openFact], by decide⟩ none openFact.factId openFactSuccessor 0
      "2026-01-03T00:00:00Z".toList "2026-01-04T00:00:00Z".toList := by
  intro h
  have hget : (⟨[openFact], by decide⟩ : FactTable).get? openFact.factId = some openFact :=
    Table.get?_eq_some_iff.mpr ⟨List.mem_singleton_self openFact, rfl⟩
  obtain ⟨closedAt, hretired, hundone, hrow⟩ := @undone_of_active ℤ _ sampleChrono _ none _
    openFactSuccessor 0 "2026-01-03T00:00:00Z".toList "2026-01-04T00:00:00Z".toList _ hget rfl
  have hback := h.restores openFact hget rfl hretired hundone
  rw [hrow, Option.some.injEq] at hback
  have hclosed := ((cleared_superseded_iff rfl).mp hback).1
  cases hclosed

end FactIndex

end Mwe
