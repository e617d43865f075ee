import Mathlib

/-!
# Runs of a transition system

A transition system is a partial step function `step : σ → ε → Option σ`: `step s e = none` says
that the event `e` cannot happen in `s`.  `Run step s trace t` is a run from `s` to `t`; its trace
lists every event with the state it happened in.

The two rules below are the only inductions over runs a safety proof needs.  `Run.invariant` is
for a property that every step of the run preserves.  `Run.always_iff` is for a property that
some steps break: when a step keeps the property exactly if it meets a condition, the property
holds in every state of a run exactly if every step of the run meets the condition.
-/

variable {σ ε : Type*}

/-- The runs of `step`, with the trace of states and events. -/
inductive Run (step : σ → ε → Option σ) (s : σ) : List (σ × ε) → σ → Prop
  | refl : Run step s [] s
  | tail {trace : List (σ × ε)} {t u : σ} {e : ε} :
      Run step s trace t → step t e = some u → Run step s (trace ++ [(t, e)]) u

namespace Run

variable {step : σ → ε → Option σ} {s t u : σ} {trace : List (σ × ε)}

/-- `P` in every state of a run: in each state an event happened in, and in the last. -/
def Always (P : σ → Prop) (trace : List (σ × ε)) (t : σ) : Prop :=
  (∀ p ∈ trace, P p.1) ∧ P t

/-- Executing events one after the other gives a run. -/
lemma of_foldlM {events : List ε} (h : events.foldlM step s = some t) :
    ∃ trace, Run step s trace t := by
  induction events using List.reverseRecOn generalizing t with
  | nil =>
    obtain rfl : s = t := Option.some.inj h
    exact ⟨[], .refl⟩
  | append_singleton events e ih =>
    rw [List.foldlM_append] at h
    obtain ⟨u, hu, hstep⟩ := Option.bind_eq_some_iff.mp h
    obtain ⟨trace, hrun⟩ := ih hu
    refine ⟨trace ++ [(u, e)], hrun.tail ?_⟩
    simpa using hstep

/-- Executing events one after the other, each where it passes a check, gives a run whose steps all
pass it. -/
lemma of_foldlM_checked {check : σ → ε → Bool} {events : List ε}
    (h : events.foldlM (fun x e => if check x e then step x e else none) s = some t) :
    ∃ trace, Run step s trace t ∧ ∀ p ∈ trace, check p.1 p.2 = true := by
  induction events using List.reverseRecOn generalizing t with
  | nil =>
    obtain rfl : s = t := Option.some.inj h
    exact ⟨[], .refl, by simp⟩
  | append_singleton events e ih =>
    rw [List.foldlM_append] at h
    obtain ⟨u, hu, hlast⟩ := Option.bind_eq_some_iff.mp h
    obtain ⟨trace, hrun, hchecked⟩ := ih hu
    have hstep : check u e = true ∧ step u e = some t := by simpa using hlast
    refine ⟨trace ++ [(u, e)], hrun.tail hstep.2, ?_⟩
    intro p hp
    rcases List.mem_append.mp hp with hp | hp
    · exact hchecked p hp
    · rw [List.mem_singleton.mp hp]
      exact hstep.1

/-- A run of checked steps is a run. -/
lemma foldlM_of_checked {check : σ → ε → Bool} {events : List ε}
    (h : events.foldlM (fun x e => if check x e then step x e else none) s = some t) :
    events.foldlM step s = some t := by
  induction events generalizing s with
  | nil => exact h
  | cons e events ih =>
    rw [List.foldlM_cons] at h ⊢
    obtain ⟨u, hu, hrest⟩ := Option.bind_eq_some_iff.mp h
    have hstep : check s e = true ∧ step s e = some u := by simpa using hu
    exact Option.bind_eq_some_iff.mpr ⟨u, hstep.2, ih hrest⟩

/-- What every event preserves holds after all of them. -/
lemma preserved {P : σ → Prop} {events : List ε}
    (hstep : ∀ e ∈ events, ∀ {x y : σ}, step x e = some y → P x → P y)
    (h : events.foldlM step s = some t) (hs : P s) : P t := by
  induction events generalizing s with
  | nil =>
    obtain rfl : s = t := Option.some.inj h
    exact hs
  | cons e events ih =>
    rw [List.foldlM_cons] at h
    obtain ⟨u, hu, hrest⟩ := Option.bind_eq_some_iff.mp h
    exact ih (fun x hx => hstep x (List.mem_cons_of_mem e hx)) hrest
      (hstep e List.mem_cons_self hu hs)

/-- What no event changes is as it was. -/
lemma eq_of_foldlM {α : Type*} (f : σ → α) {events : List ε}
    (hstep : ∀ e ∈ events, ∀ {x y : σ}, step x e = some y → f y = f x)
    (h : events.foldlM step s = some t) : f t = f s :=
  preserved (P := fun x => f x = f s) (fun e he _ _ hxy hx => (hstep e he hxy).trans hx) h rfl

/-- A run to a state that passes a test. -/
lemma exists_of_any {test : σ → Bool} {events : List ε}
    (h : (events.foldlM step s).any test = true) :
    ∃ trace t, Run step s trace t ∧ test t = true := by
  obtain ⟨t, ht, htest⟩ := (Option.any_eq_true _ _).mp h
  obtain ⟨trace, hrun⟩ := of_foldlM ht
  exact ⟨trace, t, hrun, htest⟩

/-- The same with a check on every step. -/
lemma exists_of_any_checked {check : σ → ε → Bool} {test : σ → Bool} {events : List ε}
    (h : (events.foldlM (fun x e => if check x e then step x e else none) s).any test = true) :
    ∃ trace t, Run step s trace t ∧ (∀ p ∈ trace, check p.1 p.2 = true) ∧ test t = true := by
  obtain ⟨t, ht, htest⟩ := (Option.any_eq_true _ _).mp h
  obtain ⟨trace, hrun, hchecked⟩ := of_foldlM_checked ht
  exact ⟨trace, t, hrun, hchecked, htest⟩

/-- What holds at first and is kept by every step that meets the condition holds in every state of
a run whose steps all meet it. -/
theorem invariant {P : σ → Prop} {C : σ → ε → Prop} (hrun : Run step s trace t) (hs : P s)
    (hstep : ∀ {x y : σ} {e : ε}, step x e = some y → P x → C x e → P y)
    (hC : ∀ p ∈ trace, C p.1 p.2) : Always P trace t := by
  induction hrun with
  | refl => exact ⟨by simp, hs⟩
  | @tail trace t u e _ hlast ih =>
    obtain ⟨hbefore, ht⟩ := ih fun p hp => hC p (List.mem_append_left _ hp)
    refine ⟨?_, hstep hlast ht (hC (t, e) (by simp))⟩
    intro p hp
    rcases List.mem_append.mp hp with hp | hp
    · exact hbefore p hp
    · rw [List.mem_singleton] at hp
      rw [hp]
      exact ht

/-- What every step relates by a preorder, a run relates: each of its states to the last. -/
theorem le_last {R : σ → σ → Prop} (hrefl : ∀ x, R x x)
    (htrans : ∀ {x y z}, R x y → R y z → R x z)
    (hstep : ∀ {x y : σ} {e : ε}, step x e = some y → R x y) (hrun : Run step s trace t) :
    R s t ∧ ∀ p ∈ trace, R p.1 t := by
  induction hrun with
  | refl => exact ⟨hrefl s, by simp⟩
  | @tail trace t u e _ hlast ih =>
    obtain ⟨hfirst, hstates⟩ := ih
    refine ⟨htrans hfirst (hstep hlast), ?_⟩
    intro p hp
    rcases List.mem_append.mp hp with hp | hp
    · exact htrans (hstates p hp) (hstep hlast)
    · rw [List.mem_singleton.mp hp]
      exact hstep hlast

/-- The same when only the steps that meet a condition go up. -/
theorem le_last_of {R : σ → σ → Prop} {C : σ → ε → Prop} (hrefl : ∀ x, R x x)
    (htrans : ∀ {x y z}, R x y → R y z → R x z)
    (hstep : ∀ {x y : σ} {e : ε}, step x e = some y → C x e → R x y) (hrun : Run step s trace t)
    (hC : ∀ p ∈ trace, C p.1 p.2) : R s t ∧ ∀ p ∈ trace, R p.1 t := by
  induction hrun with
  | refl => exact ⟨hrefl s, by simp⟩
  | @tail trace t u e _ hlast ih =>
    have hup : R t u := hstep hlast (hC (t, e) (by simp))
    obtain ⟨hfirst, hstates⟩ := ih fun p hp => hC p (List.mem_append_left _ hp)
    refine ⟨htrans hfirst hup, ?_⟩
    intro p hp
    rcases List.mem_append.mp hp with hp | hp
    · exact htrans (hstates p hp) hup
    · rw [List.mem_singleton.mp hp]
      exact hup

/-- When a step goes up in a transitive relation exactly if it meets the condition, the states of a
run go up, each to every later one, exactly if every step of the run meets it. -/
theorem pairwise_iff {R : σ → σ → Prop} {C : σ → ε → Prop}
    (htrans : ∀ {x y z}, R x y → R y z → R x z)
    (hstep : ∀ {x y : σ} {e : ε}, step x e = some y → (R x y ↔ C x e))
    (hrun : Run step s trace t) :
    (trace.map Prod.fst ++ [t]).Pairwise R ↔ ∀ p ∈ trace, C p.1 p.2 := by
  induction hrun with
  | refl => simp
  | @tail trace t u e _ hlast ih =>
    have hsplit : (trace ++ [(t, e)]).map Prod.fst ++ [u] = trace.map Prod.fst ++ [t] ++ [u] := by
      simp
    rw [hsplit, List.pairwise_append, ih]
    constructor
    · rintro ⟨hbefore, -, hup⟩ p hp
      rcases List.mem_append.mp hp with hp | hp
      · exact hbefore p hp
      · rw [List.mem_singleton.mp hp]
        exact (hstep hlast).mp (hup t (by simp) u (by simp))
    · intro hC
      have hbefore : ∀ p ∈ trace, C p.1 p.2 := fun p hp => hC p (List.mem_append_left _ hp)
      have hlastUp : R t u := (hstep hlast).mpr (hC (t, e) (by simp))
      refine ⟨hbefore, by simp, ?_⟩
      intro x hx y hy
      rw [List.mem_singleton.mp hy]
      rcases List.mem_append.mp hx with hx | hx
      · exact htrans ((List.pairwise_append.mp (ih.mpr hbefore)).2.2 x hx t (by simp)) hlastUp
      · rw [List.mem_singleton.mp hx]
        exact hlastUp

/-- When a step keeps `P` exactly if it meets the condition, `P` holds in every state of a run
exactly if every step of the run meets it. -/
theorem always_iff {P : σ → Prop} {C : σ → ε → Prop} (hrun : Run step s trace t) (hs : P s)
    (hstep : ∀ {x y : σ} {e : ε}, step x e = some y → P x → (P y ↔ C x e)) :
    Always P trace t ↔ ∀ p ∈ trace, C p.1 p.2 := by
  constructor
  · intro hP
    induction hrun with
    | refl => simp
    | @tail trace t u e _ hlast ih =>
      obtain ⟨hstates, hu⟩ := hP
      have ht : P t := hstates (t, e) (by simp)
      have hbefore : ∀ p ∈ trace, P p.1 := fun p hp => hstates p (List.mem_append_left _ hp)
      intro p hp
      rcases List.mem_append.mp hp with hp | hp
      · exact ih ⟨hbefore, ht⟩ p hp
      · rw [List.mem_singleton] at hp
        rw [hp]
        exact (hstep hlast ht).mp hu
  · intro hC
    exact hrun.invariant hs (fun hxy hx hc => (hstep hxy hx).mpr hc) hC

/-- When a step relates its two states exactly if it meets the condition, given an invariant, every
step of a run relates its states exactly if every step of the run meets it. -/
theorem steps_iff {P : σ → Prop} {R : σ → σ → Prop} {C : σ → ε → Prop}
    (hrun : Run step s trace t) (hs : P s)
    (hkeep : ∀ {x y : σ} {e : ε}, step x e = some y → P x → P y)
    (hstep : ∀ {x y : σ} {e : ε}, step x e = some y → P x → (R x y ↔ C x e)) :
    (∀ p ∈ trace, ∀ u, step p.1 p.2 = some u → R p.1 u) ↔ ∀ p ∈ trace, C p.1 p.2 := by
  have hall : P t ∧ ∀ p ∈ trace,
      ((∀ u, step p.1 p.2 = some u → R p.1 u) ↔ C p.1 p.2) := by
    induction hrun with
    | refl => exact ⟨hs, by simp⟩
    | @tail trace t u e _ hlast ih =>
      obtain ⟨ht, hbefore⟩ := ih
      refine ⟨hkeep hlast ht, ?_⟩
      intro p hp
      rcases List.mem_append.mp hp with hp | hp
      · exact hbefore p hp
      · rw [List.mem_singleton.mp hp]
        constructor
        · intro hrelates
          exact (hstep hlast ht).mp (hrelates u hlast)
        · intro hC v hv
          exact (hstep hv ht).mpr hC
  exact forall₂_congr hall.2

/-! ## Parts of a run -/

/-- The last step of a run. -/
lemma of_concat {p : σ × ε} (h : Run step s (trace ++ [p]) t) :
    Run step s trace p.1 ∧ step p.1 p.2 = some t := by
  generalize hall : trace ++ [p] = whole at h
  cases h with
  | refl => simp at hall
  | tail hrun hstep =>
    obtain ⟨rfl, hlast⟩ := List.append_inj' hall rfl
    obtain rfl := List.singleton_inj.mp hlast
    exact ⟨hrun, hstep⟩

/-- A run after another. -/
lemma append {after : List (σ × ε)} (h : Run step s trace u) (h' : Run step u after t) :
    Run step s (trace ++ after) t := by
  induction h' with
  | refl => rwa [List.append_nil]
  | tail _ hstep ih =>
    rw [← List.append_assoc]
    exact ih.tail hstep

/-- A run in two parts. -/
lemma exists_split {before after : List (σ × ε)} (h : Run step s (before ++ after) t) :
    ∃ u, Run step s before u ∧ Run step u after t := by
  induction after using List.reverseRecOn generalizing t with
  | nil => exact ⟨t, by rwa [List.append_nil] at h, .refl⟩
  | append_singleton after p ih =>
    rw [← List.append_assoc] at h
    obtain ⟨hrun, hstep⟩ := of_concat h
    obtain ⟨u, hbefore, hafter⟩ := ih hrun
    exact ⟨u, hbefore, hafter.tail hstep⟩

/-- A step in the middle of a run. -/
lemma exists_middle {before after : List (σ × ε)} {p : σ × ε}
    (h : Run step s (before ++ p :: after) t) :
    Run step s before p.1 ∧ ∃ u, step p.1 p.2 = some u ∧ Run step u after t := by
  rw [List.append_cons] at h
  obtain ⟨u, hbefore, hafter⟩ := exists_split h
  obtain ⟨hrun, hstep⟩ := of_concat hbefore
  exact ⟨hrun, u, hstep, hafter⟩

end Run
