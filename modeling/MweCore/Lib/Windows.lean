import Mathlib

/-!
# Fixed windows

A counter that starts over whenever a window has run out is read at some instants.  Each reading
(`Mark`) has the start of its window and the count reached in it; of two readings the later one is
further on in the same window, or in a window that starts when the earlier one has run out
(`Follows`).  At most two windows meet an interval of their own length, so no more than twice the
ceiling of readings below it lie there: `length_le_two_mul`.
-/

namespace Windows

/-- A reading of a counter: when, in the window that starts when, and which count. -/
structure Mark where
  instant : ℕ
  start : ℕ
  count : ℕ

/-- A reading taken while its window runs. -/
structure Mark.Running (len : ℕ) (m : Mark) : Prop where
  started : m.start ≤ m.instant
  runs : m.instant < m.start + len
  counts : 1 ≤ m.count

/-- A later reading: further on in the same window, or in one that starts after it. -/
def Follows (len : ℕ) (m m' : Mark) : Prop :=
  m.start + len ≤ m'.start ∨ m.start = m'.start ∧ m.count < m'.count

variable {len limit a : ℕ} {marks : List Mark}

/-- An interval of the length of a window meets two windows at most. -/
lemma card_starts_le (hrun : ∀ m ∈ marks, m.Running len) (hfollows : marks.Pairwise (Follows len))
    (hin : ∀ m ∈ marks, a ≤ m.instant ∧ m.instant ≤ a + len) :
    (marks.map Mark.start).toFinset.card ≤ 2 := by
  have hapart : ∀ m ∈ marks, ∀ m' ∈ marks, m.start ≠ m'.start →
      m.start + len ≤ m'.start ∨ m'.start + len ≤ m.start := by
    intro m hm m' hm' hne
    have hpair : marks.Pairwise fun m m' : Mark => m.start ≠ m'.start →
        m.start + len ≤ m'.start ∨ m'.start + len ≤ m.start :=
      hfollows.imp fun hf hne => Or.inl (hf.resolve_right fun h => hne h.1)
    have : Std.Symm fun m m' : Mark => m.start ≠ m'.start →
        m.start + len ≤ m'.start ∨ m'.start + len ≤ m.start := ⟨fun _ _ h hne => (h hne.symm).symm⟩
    exact hpair.forall_of_forall (fun _ _ h => absurd rfl h) hm hm' hne
  by_contra hcard
  obtain ⟨s₁, s₂, s₃, h₁, h₂, h₃, h₁₂, h₁₃, h₂₃⟩ := Finset.two_lt_card_iff.mp (not_le.mp hcard)
  simp only [List.mem_toFinset, List.mem_map] at h₁ h₂ h₃
  obtain ⟨m₁, hm₁, rfl⟩ := h₁
  obtain ⟨m₂, hm₂, rfl⟩ := h₂
  obtain ⟨m₃, hm₃, rfl⟩ := h₃
  have hr₁ := hrun m₁ hm₁
  have hr₂ := hrun m₂ hm₂
  have hr₃ := hrun m₃ hm₃
  have hi₁ := hin m₁ hm₁
  have hi₂ := hin m₂ hm₂
  have hi₃ := hin m₃ hm₃
  have := hapart m₁ hm₁ m₂ hm₂ h₁₂
  have := hapart m₁ hm₁ m₃ hm₃ h₁₃
  have := hapart m₂ hm₂ m₃ hm₃ h₂₃
  have := hr₁.started
  have := hr₁.runs
  have := hr₂.started
  have := hr₂.runs
  have := hr₃.started
  have := hr₃.runs
  omega

/-- No more than twice the ceiling of readings lie in an interval of the length of a window. -/
theorem length_le_two_mul (hrun : ∀ m ∈ marks, m.Running len)
    (hfollows : marks.Pairwise (Follows len))
    (hin : ∀ m ∈ marks, a ≤ m.instant ∧ m.instant ≤ a + len)
    (hlimit : ∀ m ∈ marks, m.count ≤ limit) : marks.length ≤ 2 * limit := by
  -- a reading is known by its window and its count
  have hnodup : (marks.map fun m => (m.start, m.count)).Nodup := by
    rw [List.Nodup, List.pairwise_map]
    refine List.Pairwise.imp_of_mem ?_ hfollows
    intro m m' hm hm' hf heq
    rw [Prod.mk.injEq] at heq
    rcases hf with hf | ⟨-, hf⟩
    · have hlen : m.start < m.start + len := lt_of_le_of_lt (hrun m hm).started (hrun m hm).runs
      omega
    · omega
  have hsub : (marks.map fun m => (m.start, m.count)).toFinset ⊆
      (marks.map Mark.start).toFinset ×ˢ Finset.Icc 1 limit := by
    intro p hp
    rw [List.mem_toFinset, List.mem_map] at hp
    obtain ⟨m, hm, rfl⟩ := hp
    rw [Finset.mem_product, List.mem_toFinset, Finset.mem_Icc]
    exact ⟨List.mem_map_of_mem hm, (hrun m hm).counts, hlimit m hm⟩
  calc marks.length
      = (marks.map fun m => (m.start, m.count)).toFinset.card := by
        rw [List.toFinset_card_of_nodup hnodup, List.length_map]
    _ ≤ ((marks.map Mark.start).toFinset ×ˢ Finset.Icc 1 limit).card := Finset.card_le_card hsub
    _ = (marks.map Mark.start).toFinset.card * limit := by
        rw [Finset.card_product, Nat.card_Icc, Nat.add_sub_cancel]
    _ ≤ 2 * limit := Nat.mul_le_mul_right limit (card_starts_le hrun hfollows hin)

end Windows
