import MweCore.Lib.Str

/-!
# Who is enrolled in which group

The groups are rows with their members.  One query reads the groups of a person, another the
people of a group; on a roster whose ids passed the checks of an enrolment file the two answer the
same question.
-/

namespace Mwe

open Str

/-- A row of `enrollment_groups`. -/
structure EnrollmentGroup where
  groupId : Str
  members : List Str
  deriving DecidableEq

/-- The groups a user is in, in order. -/
def groupsFor (groups : List EnrollmentGroup) (userId : Str) : List Str :=
  if userId.isEmpty then []
  else ((groups.filter fun g => userId ∈ g.members).map EnrollmentGroup.groupId).insertionSort
    fun a b => a ≤ b

/-- The members of a group, in order. -/
def membersFor (groups : List EnrollmentGroup) (groupId : Str) : List Str :=
  if groupId.isEmpty then []
  else ((groups.filter fun g => g.groupId = groupId).flatMap EnrollmentGroup.members).insertionSort
    fun a b => a ≤ b

/-- Whether a string can be the id of a user. -/
def isValidUserId : Str → Bool
  | [] => false
  | first :: chars => first.isLower && chars.all fun c => c.isLower || c.isDigit || c == '°'

/-- Whether a string can be the id of a group. -/
def isValidGroupId : Str → Bool
  | [] => false
  | first :: chars => first.isLower && chars.all fun c => c.isLower || c.isDigit

/-- The groups of an enrolment that was accepted. -/
structure Roster where
  groups : List EnrollmentGroup
  valid : ∀ g ∈ groups, isValidGroupId g.groupId = true ∧
    ∀ m ∈ g.members, isValidUserId m = true

/-- A person is a member of exactly the groups they are in. -/
lemma Roster.mem_membersFor_iff (roster : Roster) {groupId userId : Str} :
    userId ∈ membersFor roster.groups groupId ↔ groupId ∈ groupsFor roster.groups userId := by
  have hmembers : userId ∈ membersFor roster.groups groupId ↔
      ∃ g ∈ roster.groups, g.groupId = groupId ∧ userId ∈ g.members := by
    unfold membersFor
    split_ifs with hempty
    · simp only [List.not_mem_nil, false_iff]
      rintro ⟨g, hg, rfl, -⟩
      have hid := (roster.valid g hg).1
      rw [List.isEmpty_iff.mp hempty] at hid
      cases hid
    · simp [and_assoc]
  have hgroups : groupId ∈ groupsFor roster.groups userId ↔
      ∃ g ∈ roster.groups, g.groupId = groupId ∧ userId ∈ g.members := by
    unfold groupsFor
    split_ifs with hempty
    · simp only [List.not_mem_nil, false_iff]
      rintro ⟨g, hg, -, hmem⟩
      have hid := (roster.valid g hg).2 userId hmem
      rw [List.isEmpty_iff.mp hempty] at hid
      cases hid
    · simp only [List.mem_insertionSort, List.mem_map, List.mem_filter, decide_eq_true_eq]
      exact exists_congr fun g => by tauto
  rw [hmembers, hgroups]

end Mwe
