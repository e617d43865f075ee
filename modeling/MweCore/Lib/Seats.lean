import Mathlib

/-!
# Seats given out in passes

A number of seats is given out in passes.  A pass goes through a list of applicants in order and
seats those who have no seat yet, under the label of the pass, until it has given out its quota or
no seat is left.  So an applicant has one seat, under the label of the first pass that reached it.

`Given` says what one pass may do, and `given_pass` that a pass does that.  The lemmas on `run` are
about a list of passes: who has a seat and why, how many seats a label has, and who can be without
one while seats are left.
-/

namespace Seats

variable {κ σ : Type*} [DecidableEq κ]

/-- One pass over the applicants. -/
def pass (budget : ℕ) (label : σ) : ℕ → List κ → List (κ × σ) → List (κ × σ)
  | _, [], out => out
  | quota, k :: keys, out =>
    if quota = 0 ∨ out.length = budget then out
    else if k ∈ out.map Prod.fst then pass budget label quota keys out
    else pass budget label (quota - 1) keys (out ++ [(k, label)])

/-- A pass: its label, its quota and who applies. -/
structure Pass (κ σ : Type*) where
  label : σ
  quota : ℕ
  keys : List κ

/-- The seats after a list of passes. -/
def run (budget : ℕ) : List (Pass κ σ) → List (κ × σ) → List (κ × σ)
  | [], out => out
  | p :: passes, out => run budget passes (pass budget p.label p.quota p.keys out)

variable {budget : ℕ} {label : σ} {quota : ℕ} {keys : List κ} {out out' : List (κ × σ)}
  {passes : List (Pass κ σ)} {p : Pass κ σ} {k : κ} {s : σ}

/-- What a pass does to the seats: who is given one, out of the applicants and under the label; and
who applied is left without only when the quota or the seats were used up. -/
structure Given (budget : ℕ) (label : σ) (quota : ℕ) (keys : List κ) (out out' : List (κ × σ))
    (given : List κ) : Prop where
  eq : out' = out ++ given.map fun k => (k, label)
  sublist : given.Sublist keys
  nodup : given.Nodup
  fresh : ∀ k ∈ given, k ∉ out.map Prod.fst
  withinQuota : given.length ≤ quota
  withinBudget : out.length ≤ budget → out'.length ≤ budget
  left : given.length = quota ∨ out'.length = budget ∨ ∀ k ∈ keys, k ∈ out'.map Prod.fst

lemma given_pass (budget : ℕ) (label : σ) (quota : ℕ) (keys : List κ) (out : List (κ × σ)) :
    ∃ given, Given budget label quota keys out (pass budget label quota keys out) given := by
  induction keys generalizing quota out with
  | nil => exact ⟨[], by simp [pass], .slnil, List.nodup_nil, by simp, by simp, by simp [pass],
      .inr (.inr (by simp))⟩
  | cons k keys ih =>
    rw [pass]
    split_ifs with hstop hseated
    · refine ⟨[], by simp, List.nil_sublist _, List.nodup_nil, by simp, by simp, id, ?_⟩
      rcases hstop with hquota | hfull
      · exact .inl hquota.symm
      · exact .inr (.inl hfull)
    · obtain ⟨given, h⟩ := ih quota out
      refine ⟨given, h.eq, h.sublist.cons k, h.nodup, h.fresh, h.withinQuota, h.withinBudget, ?_⟩
      refine h.left.imp_right (Or.imp_right fun hall => List.forall_mem_cons.mpr ⟨?_, hall⟩)
      rw [h.eq, List.map_append]
      exact List.mem_append_left _ hseated
    · obtain ⟨hquota, hroom⟩ := not_or.mp hstop
      obtain ⟨given, h⟩ := ih (quota - 1) (out ++ [(k, label)])
      have hother : k ∉ given := fun hk => h.fresh k hk (by simp)
      refine ⟨k :: given, by rw [h.eq]; simp, h.sublist.cons_cons k, ?_, ?_, ?_, ?_, ?_⟩
      · exact List.nodup_cons.mpr ⟨hother, h.nodup⟩
      · refine List.forall_mem_cons.mpr ⟨hseated, fun x hx => ?_⟩
        exact fun hin => h.fresh x hx (by rw [List.map_append]; exact List.mem_append_left _ hin)
      · have hle := h.withinQuota
        rw [List.length_cons]
        omega
      · intro hle
        refine h.withinBudget ?_
        rw [List.length_append, List.length_singleton]
        omega
      · refine h.left.imp (fun hlen => ?_) (Or.imp_right fun hall => ?_)
        · rw [List.length_cons]
          omega
        · refine List.forall_mem_cons.mpr ⟨?_, hall⟩
          rw [h.eq, List.map_append, List.map_append]
          exact List.mem_append_left _ (by simp)

/-- The first pass seats the first of its applicants. -/
lemma pass_fresh (budget : ℕ) (label : σ) (quota : ℕ) (hkeys : keys.Nodup) :
    pass budget label quota keys [] = (keys.take (min quota budget)).map fun k => (k, label) := by
  have hstep : ∀ (quota : ℕ) (out : List (κ × σ)), out.length ≤ budget →
      (∀ k ∈ keys, k ∉ out.map Prod.fst) → pass budget label quota keys out =
        out ++ (keys.take (min quota (budget - out.length))).map fun k => (k, label) := by
    induction keys with
    | nil => simp [pass]
    | cons k keys ih =>
      intro quota out hle hfresh
      obtain ⟨hother, hkeys⟩ := List.nodup_cons.mp hkeys
      rw [pass]
      split_ifs with hstop hseated
      · have hzero : min quota (budget - out.length) = 0 := by omega
        rw [hzero, List.take_zero, List.map_nil, List.append_nil]
      · exact absurd hseated (hfresh k List.mem_cons_self)
      · obtain ⟨hquota, hroom⟩ := not_or.mp hstop
        have hlength : (out ++ [(k, label)]).length = out.length + 1 := by simp
        have htake : min quota (budget - out.length) =
            min (quota - 1) (budget - (out.length + 1)) + 1 := by omega
        rw [ih hkeys (quota - 1) (out ++ [(k, label)]) (by omega), hlength, htake,
          List.take_succ_cons, List.map_cons, List.append_assoc, List.singleton_append]
        intro x hx hin
        rw [List.map_append, List.mem_append] at hin
        rcases hin with hin | hin
        · exact hfresh x (List.mem_cons_of_mem _ hx) hin
        · obtain rfl : x = k := by simpa using hin
          exact hother hx
  have hfirst := hstep quota [] (Nat.zero_le _) (by simp)
  simpa using hfirst

/-- Nobody has two seats, and no more are given than there are. -/
lemma nodup_run (budget : ℕ) (passes : List (Pass κ σ)) (hnodup : (out.map Prod.fst).Nodup)
    (hbudget : out.length ≤ budget) :
    ((run budget passes out).map Prod.fst).Nodup ∧ (run budget passes out).length ≤ budget := by
  induction passes generalizing out with
  | nil => exact ⟨hnodup, hbudget⟩
  | cons p passes ih =>
    obtain ⟨given, h⟩ := given_pass budget p.label p.quota p.keys out
    refine ih ?_ (h.withinBudget hbudget)
    rw [h.eq, List.map_append, List.map_map, List.nodup_append']
    have hid : given.map (Prod.fst ∘ fun k => (k, p.label)) = given := List.map_id _
    rw [hid]
    exact ⟨hnodup, h.nodup, fun k hk hg => h.fresh k hg hk⟩

/-- Nobody loses a seat, or the order of theirs. -/
lemma prefix_run (budget : ℕ) (passes : List (Pass κ σ)) (out : List (κ × σ)) :
    out <+: run budget passes out := by
  induction passes generalizing out with
  | nil => exact List.prefix_rfl
  | cons p passes ih =>
    obtain ⟨given, h⟩ := given_pass budget p.label p.quota p.keys out
    refine List.IsPrefix.trans ?_ (ih _)
    rw [h.eq]
    exact List.prefix_append _ _

/-- A seat was given in a pass, to one of its applicants and under its label. -/
lemma of_mem_run (h : (k, s) ∈ run budget passes out) :
    (k, s) ∈ out ∨ ∃ p ∈ passes, p.label = s ∧ k ∈ p.keys := by
  induction passes generalizing out with
  | nil => exact .inl h
  | cons p passes ih =>
    rcases ih h with hin | ⟨q, hq, hlabel, hk⟩
    · obtain ⟨given, hgiven⟩ := given_pass budget p.label p.quota p.keys out
      rw [hgiven.eq, List.mem_append, List.mem_map] at hin
      rcases hin with hin | ⟨x, hx, heq⟩
      · exact .inl hin
      · obtain ⟨rfl, rfl⟩ := Prod.mk.inj heq
        exact .inr ⟨p, List.mem_cons_self, rfl, hgiven.sublist.subset hx⟩
    · exact .inr ⟨q, List.mem_cons_of_mem _ hq, hlabel, hk⟩

/-- While a seat is left, an applicant is without one only when its pass gave out its quota. -/
lemma seated_or_quota (hp : p ∈ passes) (hroom : (run budget passes out).length < budget) :
    (∀ k ∈ p.keys, k ∈ (run budget passes out).map Prod.fst) ∨
      ∃ given : List κ, given.length = p.quota ∧
        (given.map fun k => (k, p.label)).Sublist (run budget passes out) := by
  induction passes generalizing out with
  | nil => cases hp
  | cons q passes ih =>
    rcases List.mem_cons.mp hp with rfl | hp
    · obtain ⟨given, h⟩ := given_pass budget p.label p.quota p.keys out
      have hlater := (prefix_run budget passes (pass budget p.label p.quota p.keys out)).sublist
      rcases h.left with hquota | hfull | hall
      · refine .inr ⟨given, hquota, List.Sublist.trans ?_ hlater⟩
        rw [h.eq]
        exact List.sublist_append_right _ _
      · have hle := hlater.length_le
        change (run budget passes _).length < budget at hroom
        omega
      · exact .inl fun k hk => (hlater.map Prod.fst).subset (hall k hk)
    · exact ih hp hroom

variable [DecidableEq σ]

/-- A label has no more seats than the quotas of its passes add up to. -/
lemma count_run_le (budget : ℕ) (passes : List (Pass κ σ)) (out : List (κ × σ)) (s : σ) :
    (run budget passes out).countP (fun c => c.2 = s) ≤
      out.countP (fun c => c.2 = s) +
        ((passes.filter fun p => p.label = s).map Pass.quota).sum := by
  induction passes generalizing out with
  | nil => simp [run]
  | cons p passes ih =>
    obtain ⟨given, h⟩ := given_pass budget p.label p.quota p.keys out
    refine (ih (pass budget p.label p.quota p.keys out)).trans ?_
    rw [h.eq, List.countP_append, List.countP_map, List.filter_cons]
    by_cases hlabel : p.label = s
    · have hle : given.countP ((fun c : κ × σ => decide (c.2 = s)) ∘ fun k => (k, p.label)) ≤
          p.quota := List.countP_le_length.trans h.withinQuota
      rw [if_pos (by simpa using hlabel), List.map_cons, List.sum_cons]
      omega
    · have hnone : given.countP ((fun c : κ × σ => decide (c.2 = s)) ∘ fun k => (k, p.label)) =
          0 := List.countP_eq_zero.mpr fun k _ => by simpa using hlabel
      rw [if_neg (by simpa using hlabel), hnone, Nat.add_zero]

end Seats
