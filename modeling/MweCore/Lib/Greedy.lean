import Mathlib

/-!
# Greedy clustering

`clusters` takes the first element of a list as a seed, puts with it every later element that joins
it, and goes on with what is left.  Whatever the relation, the clusters are a rearrangement of the
list (`clusters_flatten_perm`), and the members of one all join its seed
(`exists_seed_of_mem_clusters`).

`flagged` is the same clustering the way a program with one flag for each element does it: two
loops over the indices, none of which is taken out of the list.  `flagged_eq_clusters` says that
the flags do what taking out does.
-/

namespace Greedy

section

variable {α : Type*} (joins : α → α → Bool)

/-- Seeds in order, each with the later elements that join it. -/
def clusters : List α → List (List α)
  | [] => []
  | x :: xs => (x :: xs.filter (joins x)) :: clusters (xs.filter fun y => !joins x y)
  termination_by xs => xs.length
  decreasing_by
    have hle := List.length_filter_le (fun y => !joins x y.val) xs.attach
    simp at hle ⊢
    omega

/-- Every element is in exactly one cluster. -/
theorem clusters_flatten_perm (xs : List α) : (clusters joins xs).flatten.Perm xs := by
  induction xs using clusters.induct joins with
  | case1 => rw [clusters]; rfl
  | case2 x xs ih =>
    simp only [List.unattach_filter, List.unattach_attach] at ih
    rw [clusters, List.flatten_cons, List.cons_append]
    exact List.Perm.cons x ((ih.append_left _).trans (List.filter_append_perm (joins x) xs))

/-- The members of a cluster join its seed. -/
lemma exists_seed_of_mem_clusters {xs c : List α} (h : c ∈ clusters joins xs) :
    ∃ seed rest, c = seed :: rest ∧ ∀ y ∈ rest, joins seed y = true := by
  induction xs using clusters.induct joins with
  | case1 =>
    rw [clusters] at h
    exact absurd h List.not_mem_nil
  | case2 x xs ih =>
    simp only [List.unattach_filter, List.unattach_attach] at ih
    rw [clusters] at h
    rcases List.mem_cons.mp h with rfl | h
    · exact ⟨x, _, rfl, fun y hy => (List.mem_filter.mp hy).2⟩
    · exact ih h

end

/-! ## With flags -/

section

variable (joins : ℕ → ℕ → Bool) (n : ℕ)

/-- One turn of the outer loop: an index without a flag takes every later one without a flag that
joins it. -/
def flagStep (st : List ℕ × List (List ℕ)) (i : ℕ) : List ℕ × List (List ℕ) :=
  if st.1.elem i then st
  else
    let cluster := i :: (List.range' (i + 1) (n - (i + 1))).filter fun j =>
      !st.1.elem j && joins i j
    (cluster ++ st.1, st.2 ++ [cluster])

/-- The clusters of the indices below `n`, found with flags. -/
def flagged : List (List ℕ) := ((List.range n).foldl (flagStep joins n) ([], [])).2

/-- What is left to cluster from an index on. -/
private lemma foldl_flagStep (m i : ℕ) (hn : i + m = n) (assigned : List ℕ)
    (found : List (List ℕ)) :
    ((List.range' i m).foldl (flagStep joins n) (assigned, found)).2 =
      found ++ clusters joins ((List.range' i m).filter fun j => !assigned.elem j) := by
  induction m generalizing i assigned found with
  | zero => simp [clusters]
  | succ m ih =>
    rw [List.range'_succ, List.foldl_cons, List.filter_cons]
    by_cases hi : assigned.elem i = true
    · rw [flagStep, if_pos hi, ih (i + 1) (by omega), if_neg (by simpa using hi)]
    · have hlen : n - (i + 1) = m := by omega
      have hopen : (!assigned.elem i) = true := by simpa using hi
      rw [flagStep, if_neg hi, ih (i + 1) (by omega), hlen, if_pos hopen, clusters,
        List.append_assoc, List.singleton_append, List.filter_filter, List.filter_filter]
      -- behind `i` the flags are the old ones and those of the elements that join it
      have hjoin : (List.range' (i + 1) m).filter (fun j => !assigned.elem j && joins i j) =
          (List.range' (i + 1) m).filter (fun j => joins i j && !assigned.elem j) :=
        List.filter_congr fun j _ => Bool.and_comm _ _
      have hleft : (List.range' (i + 1) m).filter (fun j => !List.elem j
            (i :: (List.range' (i + 1) m).filter (fun j => !assigned.elem j && joins i j) ++
              assigned)) =
          (List.range' (i + 1) m).filter (fun j => !joins i j && !assigned.elem j) := by
        refine List.filter_congr fun j hj => ?_
        have hne : j ≠ i := by
          have := (List.mem_range'_1.mp hj).1
          omega
        by_cases hflag : j ∈ assigned <;> cases hjoins : joins i j <;>
          simp [hne, hflag, hjoins, hj]
      rw [hleft, hjoin]

/-- Clustering with flags is greedy clustering. -/
theorem flagged_eq_clusters : flagged joins n = clusters joins (List.range n) := by
  have hall := foldl_flagStep joins n n 0 (Nat.zero_add n) [] []
  simpa [flagged, List.range_eq_range'] using hall

end

end Greedy
