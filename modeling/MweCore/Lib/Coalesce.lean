import Mathlib

/-!
# Bursts of keyed events

A consumer that is told of changes one by one may let a burst of them settle and then handle each
key once, by the last event that has it, the keys in the order they first appeared in.  `worked` is
what it handles of a burst.  `mem_worked_iff` says which events these are: those after which no
event of the burst has the same key.
-/

namespace Coalesce

variable {α κ : Type*} [DecidableEq κ]

/-- The keys that were seen, in the order they were first seen, and the last event of each. -/
structure Pending (α κ : Type*) where
  order : List κ
  latest : κ → Option α

/-- Nothing was seen. -/
def Pending.empty : Pending α κ := ⟨[], fun _ => none⟩

/-- Take down an event. -/
def Pending.note (key : α → κ) (s : Pending α κ) (a : α) : Pending α κ where
  order := if (s.latest (key a)).isNone then s.order ++ [key a] else s.order
  latest := Function.update s.latest (key a) (some a)

/-- What is pending once a burst has settled. -/
def ofBurst (key : α → κ) (burst : List α) : Pending α κ := burst.foldl (Pending.note key) .empty

/-- Work off the keys, each by its last event. -/
def drain : List κ → (κ → Option α) → List α
  | [], _ => []
  | k :: order, latest =>
    match latest k with
    | some a => a :: drain order (Function.update latest k none)
    | none => drain order latest

/-- The events of a burst that are handled. -/
def worked (key : α → κ) (burst : List α) : List α :=
  drain (ofBurst key burst).order (ofBurst key burst).latest

/-- No later event of the burst has the key. -/
def IsLast (key : α → κ) (burst : List α) (a : α) : Prop :=
  ∃ before after, burst = before ++ a :: after ∧ ∀ b ∈ after, key b ≠ key a

variable {key : α → κ} {burst : List α} {a c : α}

omit [DecidableEq κ] in
lemma isLast_concat_iff :
    IsLast key (burst ++ [c]) a ↔ a = c ∨ IsLast key burst a ∧ key c ≠ key a := by
  constructor
  · rintro ⟨before, after, heq, hafter⟩
    rcases List.eq_nil_or_concat' after with rfl | ⟨init, last, rfl⟩
    · exact .inl (List.singleton_injective (List.append_inj' heq rfl).2.symm)
    · right
      rw [← List.cons_append, ← List.append_assoc] at heq
      obtain ⟨rfl, hlast⟩ := List.append_inj' heq rfl
      obtain rfl : c = last := List.singleton_injective hlast
      exact ⟨⟨before, init, rfl, fun b hb => hafter b (by simp [hb])⟩, hafter c (by simp)⟩
  · rintro (rfl | ⟨⟨before, after, rfl, hafter⟩, hc⟩)
    · exact ⟨burst, [], rfl, by simp⟩
    · refine ⟨before, after ++ [c], by simp, ?_⟩
      intro b hb
      rcases List.mem_append.mp hb with hb | hb
      · exact hafter b hb
      · rw [List.mem_singleton.mp hb]
        exact hc

lemma ofBurst_concat (burst : List α) (c : α) :
    ofBurst key (burst ++ [c]) = (ofBurst key burst).note key c := by
  simp [ofBurst]

/-- The event kept for a key is the last one that has it. -/
lemma latest_ofBurst_iff {k : κ} :
    (ofBurst key burst).latest k = some a ↔ IsLast key burst a ∧ key a = k := by
  induction burst using List.reverseRecOn with
  | nil => simp [ofBurst, Pending.empty, IsLast]
  | append_singleton burst c ih =>
    rw [ofBurst_concat, isLast_concat_iff]
    simp only [Pending.note, Function.update_apply]
    split_ifs with hk
    · constructor
      · intro h
        obtain rfl := Option.some.inj h
        exact ⟨.inl rfl, hk.symm⟩
      · rintro ⟨rfl | ⟨-, hne⟩, hka⟩
        · rfl
        · exact absurd (hk.symm.trans hka.symm) hne
    · rw [ih]
      constructor
      · rintro ⟨hlast, rfl⟩
        exact ⟨.inr ⟨hlast, fun h => hk h.symm⟩, rfl⟩
      · rintro ⟨rfl | ⟨hlast, -⟩, rfl⟩
        · exact absurd rfl hk
        · exact ⟨hlast, rfl⟩

/-- Every key with an event has one place. -/
lemma order_ofBurst (burst : List α) :
    (ofBurst key burst).order.Nodup ∧
      ∀ k, k ∈ (ofBurst key burst).order ↔ ((ofBurst key burst).latest k).isSome := by
  induction burst using List.reverseRecOn with
  | nil => simp [ofBurst, Pending.empty]
  | append_singleton burst c ih =>
    obtain ⟨hnodup, hmem⟩ := ih
    rw [ofBurst_concat, Pending.note]
    cases hc : (ofBurst key burst).latest (key c) with
    | none =>
      have hnew : key c ∉ (ofBurst key burst).order := by simp [hmem, hc]
      refine ⟨?_, ?_⟩
      · rw [Option.isNone_none, if_pos rfl, List.nodup_append_comm]
        exact List.nodup_cons.mpr ⟨hnew, hnodup⟩
      intro k
      by_cases hk : k = key c
      · simp [hk]
      · simp [hk, hmem]
    | some b =>
      refine ⟨by simpa using hnodup, ?_⟩
      intro k
      by_cases hk : k = key c
      · simp [hk, hmem, hc]
      · simp [hk, hmem]

lemma mem_drain_iff {order : List κ} {latest : κ → Option α} (h : order.Nodup) :
    a ∈ drain order latest ↔ ∃ k ∈ order, latest k = some a := by
  induction order generalizing latest with
  | nil => simp [drain]
  | cons k order ih =>
    obtain ⟨hk, horder⟩ := List.nodup_cons.mp h
    have hupdate : (∃ k' ∈ order, Function.update latest k none k' = some a) ↔
        ∃ k' ∈ order, latest k' = some a := by
      refine exists_congr fun k' => and_congr_right fun hk' => ?_
      rw [Function.update_of_ne]
      rintro rfl
      exact hk hk'
    rw [drain]
    cases hlatest : latest k with
    | none => simp [ih horder, hlatest]
    | some b =>
      rw [List.mem_cons, ih horder, hupdate]
      simp [hlatest, eq_comm]

/-- What is handled of a burst: the last event of each key. -/
theorem mem_worked_iff : a ∈ worked key burst ↔ IsLast key burst a := by
  obtain ⟨hnodup, hmem⟩ := @order_ofBurst α κ _ key burst
  rw [worked, mem_drain_iff hnodup]
  constructor
  · rintro ⟨k, -, hk⟩
    exact (latest_ofBurst_iff.mp hk).1
  · intro hlast
    have hkept := latest_ofBurst_iff.mpr ⟨hlast, rfl⟩
    exact ⟨key a, (hmem _).mpr (by simp [hkept]), hkept⟩

omit [DecidableEq κ] in
/-- Each key of a burst has a last event. -/
lemma exists_isLast {b : α} (h : b ∈ burst) : ∃ a, IsLast key burst a ∧ key a = key b := by
  induction burst using List.reverseRecOn with
  | nil => cases h
  | append_singleton burst c ih =>
    by_cases hc : key c = key b
    · exact ⟨c, isLast_concat_iff.mpr (.inl rfl), hc⟩
    · have hb : b ∈ burst := by
        rcases List.mem_append.mp h with hb | hb
        · exact hb
        · exact absurd (by rw [List.mem_singleton.mp hb]) hc
      obtain ⟨a, ha, hab⟩ := ih hb
      refine ⟨a, isLast_concat_iff.mpr (.inr ⟨ha, ?_⟩), hab⟩
      rw [hab]
      exact hc

end Coalesce
