import Mathlib

/-!
# Reading a sorted list in batches from a cursor

A reader wants a number of items that pass a gate.  It asks for as many rows as it still needs,
strictly after the last row it looked at, looks at each, and asks again until it has enough, or a
batch comes back short, or it has looked at a ceiling of rows.

`run_spec` says what that comes to when the batches are read off a list with strictly increasing
stamps: what was looked at is a prefix of the list, and what was kept is what passes in it.
-/

namespace Drain

variable {α β κ : Type*}

/-- Where a reader stands. -/
structure State (κ β : Type*) where
  kept : List β := []
  after : Option κ := none
  examined : ℕ := 0
  ranOut : Bool := false

variable (stamp : α → κ) (gate : α → Option β) (wanted ceiling : ℕ)

/-- Look at the rows of a batch, until enough are kept. -/
def lookAt : List α → State κ β → State κ β
  | [], st => st
  | a :: rows, st =>
    let st := { st with after := some (stamp a), examined := st.examined + 1 }
    match gate a with
    | none => lookAt rows st
    | some b =>
      let st := { st with kept := st.kept ++ [b] }
      if st.kept.length = wanted then st else lookAt rows st

/-- Ask for batches; the first argument counts them. -/
def run (batchAfter : Option κ → ℕ → List α) : ℕ → State κ β → State κ β
  | 0, st => st
  | fuel + 1, st =>
    if st.kept.length < wanted ∧ st.examined < ceiling then
      let batch := wanted - st.kept.length
      let rows := batchAfter st.after batch
      let st := lookAt stamp gate wanted rows { st with ranOut := rows.length < batch }
      if st.ranOut then st else run batchAfter fuel st
    else st

variable {stamp gate wanted ceiling}

/-! ## One batch -/

/-- A batch that is not longer than what is wanted is looked at to its end. -/
lemma lookAt_eq {rows : List α} {st : State κ β} (h : st.kept.length + rows.length ≤ wanted) :
    lookAt stamp gate wanted rows st =
      { st with
        kept := st.kept ++ rows.filterMap gate
        after := (rows.getLast?.map stamp).or st.after
        examined := st.examined + rows.length } := by
  induction rows generalizing st with
  | nil => simp [lookAt]
  | cons a rows ih =>
    simp only [List.length_cons] at h
    have hlast : ((a :: rows).getLast?.map stamp).or st.after =
        (rows.getLast?.map stamp).or (some (stamp a)) := by
      cases rows <;> simp [List.getLast?_cons]
    unfold lookAt
    rw [hlast]
    cases hgate : gate a with
    | none =>
      simp only
      rw [ih (by simp only; omega)]
      simp [hgate, Nat.add_assoc, Nat.add_comm 1]
    | some b =>
      simp only [List.length_append, List.length_cons, List.length_nil, Nat.zero_add]
      split
      · next hfull =>
        have hnil : rows = [] := List.eq_nil_of_length_eq_zero (by omega)
        subst hnil
        simp [hgate]
      · rw [ih (by simp only [List.length_append, List.length_cons, List.length_nil]; omega)]
        simp [hgate, Nat.add_assoc, Nat.add_comm 1]

/-! ## The whole read -/

variable [LinearOrder κ] {l : List α}

/-- The rows after a cursor that stands on the last of the first `n`. -/
lemma filter_after (hsorted : (l.map stamp).Pairwise (· < ·)) (n : ℕ) :
    (l.filter fun a => decide (∀ k ∈ (l.take n).getLast?.map stamp, k < stamp a)) = l.drop n := by
  rcases List.eq_nil_or_concat (l.take n) with hnil | ⟨front, last, htake⟩
  · rcases List.take_eq_nil_iff.mp hnil with rfl | rfl <;> simp
  · have hl : l = front ++ last :: l.drop n := by
      conv_lhs => rw [← List.take_append_drop n l, htake]
      simp
    have hcursor : (l.take n).getLast?.map stamp = some (stamp last) := by simp [htake]
    have hpairs : ((front ++ last :: l.drop n).map stamp).Pairwise (· < ·) := hl ▸ hsorted
    rw [List.map_append, List.map_cons, List.pairwise_append, List.pairwise_cons] at hpairs
    obtain ⟨-, ⟨hlater, -⟩, hbefore⟩ := hpairs
    have hfront : (front.filter fun a => decide (stamp last < stamp a)) = [] := by
      rw [List.filter_eq_nil_iff]
      intro a ha
      have hlt := hbefore (stamp a) (List.mem_map_of_mem ha) (stamp last) List.mem_cons_self
      simpa using hlt.le
    have hback : ((l.drop n).filter fun a => decide (stamp last < stamp a)) = l.drop n := by
      rw [List.filter_eq_self]
      intro a ha
      simpa using hlater (stamp a) (List.mem_map_of_mem ha)
    have hsplit : (l.filter fun a => decide (stamp last < stamp a)) =
        (front ++ last :: l.drop n).filter fun a => decide (stamp last < stamp a) :=
      congrArg _ hl
    simp only [hcursor, Option.mem_def, Option.some.injEq, forall_eq', hsplit, List.filter_append,
      hfront, hback, List.filter_cons, lt_irrefl, decide_false, Bool.false_eq_true, if_false,
      List.nil_append]

/-- A reader that has looked at the first `n` rows. -/
structure At (stamp : α → κ) (gate : α → Option β) (wanted : ℕ) (l : List α) (n : ℕ)
    (st : State κ β) : Prop where
  le : n ≤ l.length
  kept : st.kept = (l.take n).filterMap gate
  enough : st.kept.length ≤ wanted
  after : st.after = (l.take n).getLast?.map stamp
  examined : st.examined = n

omit [LinearOrder κ] in
lemma at_zero : At stamp gate wanted l 0 ({} : State κ β) :=
  ⟨Nat.zero_le _, by simp, Nat.zero_le _, by simp, rfl⟩

omit [LinearOrder κ] in
/-- One batch later it has looked at as many more rows as there were. -/
lemma At.next {n : ℕ} {st : State κ β} (h : At stamp gate wanted l n st) {rows : List α}
    (hrows : rows = (l.drop n).take (wanted - st.kept.length)) {ranOut : Bool} :
    At stamp gate wanted l (n + rows.length)
      (lookAt stamp gate wanted rows { st with ranOut := ranOut }) := by
  have hlen : rows.length ≤ wanted - st.kept.length := by
    rw [hrows, List.length_take]
    omega
  have henough := h.enough
  have htake : l.take (n + rows.length) = l.take n ++ rows := by
    rw [List.take_add, hrows, List.length_take]
    congr 1
    rw [List.take_eq_take_iff]
    simp
  have hle := h.le
  rw [lookAt_eq (by simp only; omega)]
  refine ⟨?_, ?_, ?_, ?_, ?_⟩
  · have := congrArg List.length hrows
    rw [List.length_take, List.length_drop] at this
    omega
  · simp [htake, h.kept]
  · have := List.length_filterMap_le gate rows
    simp only [List.length_append]
    omega
  · simp only [htake, h.after, List.getLast?_append, Option.map_or]
  · simp [h.examined]

/-- How a read ends: with enough, or at the ceiling, or at the end of the list. -/
structure Ended (stamp : α → κ) (gate : α → Option β) (wanted ceiling : ℕ) (l : List α) (n : ℕ)
    (st : State κ β) : Prop extends At stamp gate wanted l n st where
  out : st.ranOut = true → n = l.length
  stopped : st.ranOut = false → st.kept.length = wanted ∨ ceiling ≤ n

/-- The whole read ends, with a prefix of the list looked at. -/
theorem run_spec (hsorted : (l.map stamp).Pairwise (· < ·)) {batchAfter : Option κ → ℕ → List α}
    (hbatch : ∀ after n, batchAfter after n =
      (l.filter fun a => decide (∀ k ∈ after, k < stamp a)).take n) {fuel n : ℕ}
    {st : State κ β} (h : At stamp gate wanted l n st) (hout : st.ranOut = false)
    (hfuel : ceiling ≤ n + fuel) :
    ∃ m, Ended stamp gate wanted ceiling l m (run stamp gate wanted ceiling batchAfter fuel st) := by
  induction fuel generalizing n st with
  | zero => exact ⟨n, h, by simp [run, hout], fun _ => Or.inr (by omega)⟩
  | succ fuel ih =>
    unfold run
    split
    · next hmore =>
      set rows := batchAfter st.after (wanted - st.kept.length) with hrows
      have hread : rows = (l.drop n).take (wanted - st.kept.length) := by
        rw [hrows, hbatch, h.after, filter_after hsorted]
      set st' := lookAt stamp gate wanted rows
        { st with ranOut := decide (rows.length < wanted - st.kept.length) } with hst
      have hnext : At stamp gate wanted l (n + rows.length) st' := h.next hread
      have hlen : rows.length = min (wanted - st.kept.length) (l.length - n) := by
        rw [hread, List.length_take, List.length_drop]
      have hflag : st'.ranOut = decide (rows.length < wanted - st.kept.length) := by
        rw [hst, lookAt_eq (by simp only; omega)]
      have hle := h.le
      change ∃ m, Ended stamp gate wanted ceiling l m
        (if st'.ranOut = true then st' else run stamp gate wanted ceiling batchAfter fuel st')
      split
      · next hshort =>
        have hlt : rows.length < wanted - st.kept.length := by
          rw [hflag] at hshort
          exact of_decide_eq_true hshort
        refine ⟨n + rows.length, hnext, fun _ => by omega, ?_⟩
        intro hfalse
        rw [hfalse] at hshort
        cases hshort
      · next hlong =>
        have hge : wanted - st.kept.length ≤ rows.length := by
          rw [hflag] at hlong
          simpa using hlong
        exact ih hnext (by simpa using hlong) (by omega)
    · next hstop =>
      refine ⟨n, h, by simp [hout], fun _ => ?_⟩
      have henough := h.enough
      have hexamined := h.examined
      omega

end Drain
