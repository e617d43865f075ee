import Mathlib

/-!
# Steps that mind their own key

A loop goes over some rows, and the step for a row reads and writes what is under the row's own key
and nothing else.  When the rows have different keys, the loop does to each key what the one step
does that minds it, in whatever order the rows come (`get_foldl`).
-/

namespace OwnKey

variable {σ ρ κ ω : Type*}

/-- `step` changes what `get` reads under the key of its row, as `after` says, and nothing else. -/
structure Minds (get : σ → κ → ω) (key : ρ → κ) (step : σ → ρ → σ) (after : ρ → ω → ω) : Prop where
  own : ∀ s x, get (step s x) (key x) = after x (get s (key x))
  other : ∀ s x k, key x ≠ k → get (step s x) k = get s k

variable {get : σ → κ → ω} {key : ρ → κ} {step : σ → ρ → σ} {after : ρ → ω → ω} {xs : List ρ}
  {s : σ} {k : κ}

lemma Minds.get_foldl_of_notMem (h : Minds get key step after) (hk : k ∉ xs.map key) :
    get (xs.foldl step s) k = get s k := by
  induction xs generalizing s with
  | nil => rfl
  | cons x xs ih =>
    rw [List.map_cons, List.mem_cons, not_or] at hk
    rw [List.foldl_cons, ih hk.2, h.other s x k (Ne.symm hk.1)]

/-- What a loop leaves under the key of one of its rows. -/
lemma Minds.get_foldl_of_mem (h : Minds get key step after) (hnodup : (xs.map key).Nodup) {x : ρ}
    (hx : x ∈ xs) : get (xs.foldl step s) (key x) = after x (get s (key x)) := by
  induction xs generalizing s with
  | nil => cases hx
  | cons y xs ih =>
    rw [List.map_cons, List.nodup_cons] at hnodup
    rw [List.foldl_cons]
    rcases List.mem_cons.mp hx with rfl | hx
    · rw [h.get_foldl_of_notMem hnodup.1, h.own]
    · rw [ih hnodup.2 hx, h.other]
      exact fun heq => hnodup.1 (heq ▸ List.mem_map_of_mem hx)

end OwnKey
