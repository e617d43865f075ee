import Mathlib

/-!
# Three-valued predicates over rows

A `WHERE` clause evaluates to true, false or NULL, and selects a row exactly when it is true.
`Truth` is that third value, `Pred` the fragment of predicates built from membership tests: a
column in a list of bound values, some element of an array column in such a list, and the
connectives.  The lemmas say when each selects a row.  Negation is the delicate one: a predicate
that is NULL is not selected, and neither is its negation, so `selects_not_iff` asks for a
predicate that is never NULL (`TwoValued`).
-/

namespace Sql

/-- The value of a predicate: `none` is NULL. -/
abbrev Truth := Option Bool

namespace Truth

/-- Negation keeps NULL. -/
def not : Truth → Truth := Option.map Bool.not

/-- Conjunction: false wins over NULL. -/
def and : Truth → Truth → Truth
  | some false, _ => some false
  | _, some false => some false
  | some true, some true => some true
  | _, _ => none

/-- Disjunction: true wins over NULL. -/
def or : Truth → Truth → Truth
  | some true, _ => some true
  | _, some true => some true
  | some false, some false => some false
  | _, _ => none

/-- `x = y`, NULL when one of them is. -/
def eq {α : Type*} [DecidableEq α] : Option α → Option α → Truth
  | some x, some y => some (decide (x = y))
  | _, _ => none

/-- `x IN (SELECT …)`: a value that is not found in a list with a NULL is not known to be
missing. -/
def inSelect {α : Type*} [DecidableEq α] (x : Option α) (values : List (Option α)) : Truth :=
  match x with
  | some x => if some x ∈ values then some true else if none ∈ values then none else some false
  | none => if values.isEmpty then some false else none

/-- Whether a `WHERE` clause with this value selects. -/
def Holds (t : Truth) : Prop := t = some true

instance (t : Truth) : Decidable t.Holds := inferInstanceAs (Decidable (_ = _))

@[simp] lemma holds_some {b : Bool} : Holds (some b) ↔ b = true := by simp [Holds]

@[simp] lemma holds_or {p q : Truth} : Holds (or p q) ↔ Holds p ∨ Holds q := by
  rcases p with _ | _ | _ <;> rcases q with _ | _ | _ <;> simp [or, Holds]

@[simp] lemma holds_eq {α : Type*} [DecidableEq α] {x : α} {y : Option α} :
    Holds (eq (some x) y) ↔ y = some x := by
  cases y <;> simp [eq, Holds, eq_comm]

@[simp] lemma holds_inSelect {α : Type*} [DecidableEq α] {x : α} {values : List (Option α)} :
    Holds (inSelect (some x) values) ↔ some x ∈ values := by
  unfold inSelect Holds
  split_ifs <;> simp_all

end Truth

variable {ρ α : Type*} [DecidableEq α]

/-- Predicates over rows of type `ρ` with values of type `α`. -/
inductive Pred (ρ α : Type*) where
  /-- `col IN (values)`; a NULL column makes it NULL, unless the list is empty. -/
  | inList (col : ρ → Option α) (values : List α)
  /-- `EXISTS (SELECT 1 FROM json_each(col) WHERE json_each.value IN (values))`. -/
  | existsIn (col : ρ → List α) (values : List α)
  | not (p : Pred ρ α)
  | and (p q : Pred ρ α)
  | or (p q : Pred ρ α)

namespace Pred

/-- The value of a predicate on a row. -/
def eval (row : ρ) : Pred ρ α → Truth
  | inList col values =>
    match col row with
    | some x => some (decide (x ∈ values))
    | none => if values.isEmpty then some false else none
  | existsIn col values => some ((col row).any fun x => decide (x ∈ values))
  | not p => (p.eval row).not
  | and p q => (p.eval row).and (q.eval row)
  | or p q => (p.eval row).or (q.eval row)

/-- Whether a `WHERE` clause selects the row. -/
def Selects (p : Pred ρ α) (row : ρ) : Prop := p.eval row = some true

instance (p : Pred ρ α) (row : ρ) : Decidable (p.Selects row) :=
  inferInstanceAs (Decidable (_ = _))

/-- The predicate is never NULL on the row. -/
def TwoValued (p : Pred ρ α) (row : ρ) : Prop := (p.eval row).isSome

@[simp] lemma selects_and_iff {p q : Pred ρ α} {row : ρ} :
    (p.and q).Selects row ↔ p.Selects row ∧ q.Selects row := by
  unfold Selects
  rw [eval]
  rcases p.eval row with _ | _ | _ <;> rcases q.eval row with _ | _ | _ <;> simp [Truth.and]

@[simp] lemma selects_or_iff {p q : Pred ρ α} {row : ρ} :
    (p.or q).Selects row ↔ p.Selects row ∨ q.Selects row := by
  unfold Selects
  rw [eval]
  rcases p.eval row with _ | _ | _ <;> rcases q.eval row with _ | _ | _ <;> simp [Truth.or]

@[simp] lemma selects_inList_iff {col : ρ → Option α} {values : List α} {row : ρ} :
    (inList col values).Selects row ↔ ∃ x ∈ values, col row = some x := by
  unfold Selects
  rw [eval]
  cases h : col row with
  | none => cases values <;> simp
  | some x => simp [eq_comm]

@[simp] lemma selects_existsIn_iff {col : ρ → List α} {values : List α} {row : ρ} :
    (existsIn col values).Selects row ↔ ∃ x ∈ values, x ∈ col row := by
  simp [Selects, eval, and_comm]

/-- `EXISTS` is never NULL. -/
lemma twoValued_existsIn (col : ρ → List α) (values : List α) (row : ρ) :
    (existsIn col values).TwoValued row := by
  simp [TwoValued, eval]

/-- The negation of a predicate that is not NULL selects what the predicate does not. -/
lemma selects_not_iff {p : Pred ρ α} {row : ρ} (h : p.TwoValued row) :
    p.not.Selects row ↔ ¬ p.Selects row := by
  obtain ⟨b, hb⟩ := Option.isSome_iff_exists.mp h
  unfold Selects
  rw [eval, hb]
  cases b <;> simp [Truth.not]

end Pred

end Sql
