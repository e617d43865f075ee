import MweCore.Lib.Table
import Mathlib.Data.Finset.Card

/-!
# Counting the rows of a table

How many rows a statement touches is a count over the rows, and what the statements before it leave
is known key by key.  A table has one row to a key, so a count is the size of a set of keys
(`card_keysWhere`), and two counts are the same when the rows under every key are counted alike
(`countP_eq_of_get?`).
-/

namespace Sql

namespace Table

variable {ρ κ : Type*} {key : ρ → κ} [DecidableEq κ]

/-- The keys of the rows that are counted. -/
def keysWhere (t : Table key) (p : ρ → Bool) : Finset κ := ((t.rows.filter p).map key).toFinset

lemma mem_keysWhere {t : Table key} {p : ρ → Bool} {k : κ} :
    k ∈ t.keysWhere p ↔ (t.get? k).any p = true := by
  simp only [keysWhere, List.mem_toFinset, List.mem_map, List.mem_filter, Option.any_eq_true,
    get?_eq_some_iff, mem_iff]
  constructor
  · rintro ⟨r, ⟨hr, hp⟩, hk⟩
    exact ⟨r, ⟨hr, hk⟩, hp⟩
  · rintro ⟨r, ⟨hr, hk⟩, hp⟩
    exact ⟨r, ⟨hr, hp⟩, hk⟩

lemma card_keysWhere (t : Table key) (p : ρ → Bool) : (t.keysWhere p).card = t.rows.countP p := by
  have hnodup : ((t.rows.filter p).map key).Nodup :=
    t.nodup.sublist (List.filter_sublist.map key)
  rw [keysWhere, List.toFinset_card_of_nodup hnodup, List.length_map, List.countP_eq_length_filter]

/-- Two tables count alike when they do under every key. -/
lemma countP_eq_of_get? {t t' : Table key} {p q : ρ → Bool}
    (h : ∀ k, (t.get? k).any p = (t'.get? k).any q) : t.rows.countP p = t'.rows.countP q := by
  rw [← card_keysWhere, ← card_keysWhere]
  congr 1
  ext k
  rw [mem_keysWhere, mem_keysWhere, h]

end Table

end Sql

namespace List

variable {α : Type*}

/-- Two pairs of counts have one sum when every element is counted as often in both. -/
lemma countP_add_countP {p q p' q' : α → Bool} {l : List α}
    (h : ∀ x ∈ l, (p x).toNat + (q x).toNat = (p' x).toNat + (q' x).toNat) :
    l.countP p + l.countP q = l.countP p' + l.countP q' := by
  induction l with
  | nil => rfl
  | cons x l ih =>
    have hx := h x mem_cons_self
    have hrest := ih fun y hy => h y (mem_cons_of_mem _ hy)
    have hstep : ∀ r : α → Bool, (x :: l).countP r = l.countP r + (r x).toNat := by
      intro r
      cases hr : r x <;> simp [hr]
    rw [hstep, hstep, hstep, hstep]
    omega

end List
