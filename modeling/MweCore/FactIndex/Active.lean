import MweCore.FactIndex.Access

/-!
# The facts that stand

The reads and the one write of the fact index that see the active rows alone, those neither
superseded nor tombstoned.  The rows of the table stand in the order they were created in.
-/

namespace Mwe

/-- A row as `moveRegion` leaves it. -/
def FactRow.atRegion (sourcePath : Str) (region : Option ℤ × Option ℤ) (now : Str) (r : FactRow) :
    FactRow :=
  { r with sourcePath, regionStart := region.1, regionEnd := region.2, updatedAt := now }

@[simp] lemma FactRow.factId_atRegion (sourcePath : Str) (region : Option ℤ × Option ℤ) (now : Str)
    (r : FactRow) : (r.atRegion sourcePath region now).factId = r.factId := rfl

namespace FactIndex

/-- Move a fact that stands to another page of its wiki. -/
def moveRegion (facts : FactTable) (factId : FactId) (sourcePath : Str)
    (region : Option ℤ × Option ℤ) (now : Str) : FactTable :=
  facts.update (fun r => r.factId == factId && r.isActive) (FactRow.atRegion sourcePath region now)
    (FactRow.factId_atRegion sourcePath region now)

/-- The facts that stand on a page. -/
def findActiveBySourcePath (facts : FactTable) (sourcePath : Str) : List FactRow :=
  facts.rows.filter fun r => decide (r.sourcePath = sourcePath) && r.isActive

/-- The active facts about a subject, the oldest first. -/
def findActiveBySubject (facts : FactTable) (subject : Principal) : List FactRow :=
  facts.rows.filter fun r => decide (r.subjectId = subject) && r.isActive

lemma mem_findActiveBySubject {facts : FactTable} {subject : Principal} {row : FactRow} :
    row ∈ findActiveBySubject facts subject ↔
      row ∈ facts ∧ row.subjectId = subject ∧ row.isActive = true := by
  simp [findActiveBySubject, Sql.Table.mem_iff]

end FactIndex

end Mwe
