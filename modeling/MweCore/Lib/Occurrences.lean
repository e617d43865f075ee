import MweCore.Lib.Search

/-!
# Occurrences one after another

A scanner that goes on behind each occurrence it has found meets the occurrences that do not
overlap, from the left (`occurrences`).  An occurrence it does not meet begins inside one it does:
the needle then begins with what it ends in, and what stands before the missed occurrence ends in
the part of the needle in front of that (`mem_occurrences_or_overlap`).
-/

namespace Search

variable {α : Type*} [DecidableEq α]

/-- The occurrences in what is left to read: what stands before and after each. -/
def occurrencesFrom (n : List α) : ℕ → List α → List α → List (List α × List α)
  | 0, _, _ => []
  | k + 1, read, rest =>
    match splitOnce n rest with
    | none => []
    | some (skipped, after) =>
      (read ++ skipped, after) :: occurrencesFrom n k (read ++ skipped ++ n) after

/-- The occurrences that do not overlap, from the left. -/
def occurrences (n s : List α) : List (List α × List α) := occurrencesFrom n (s.length + 1) [] s

variable {n : List α}

/-- What is behind an occurrence is shorter. -/
lemma length_after_lt (hn : n ≠ []) {s skipped after : List α}
    (h : splitOnce n s = some (skipped, after)) : after.length < s.length := by
  have hlen := congrArg List.length (splitOnce_append hn h)
  have hpos := List.length_pos_iff.mpr hn
  simp only [List.length_append] at hlen
  omega

/-- More steps than characters are left find nothing more. -/
lemma occurrencesFrom_eq (hn : n ≠ []) {k k' : ℕ} {read rest : List α} (hk : rest.length < k)
    (hk' : rest.length < k') : occurrencesFrom n k read rest = occurrencesFrom n k' read rest := by
  induction k generalizing k' read rest with
  | zero => omega
  | succ k ih =>
    obtain ⟨k', rfl⟩ := Nat.exists_eq_succ_of_ne_zero (Nat.ne_zero_of_lt hk')
    rw [occurrencesFrom, occurrencesFrom]
    split
    · rfl
    · next skipped after hsplit =>
      have hlt := length_after_lt hn hsplit
      rw [@ih k' _ _ (by omega) (by omega)]

/-- An occurrence stands where it is said to. -/
lemma eq_of_mem_occurrencesFrom (hn : n ≠ []) {k : ℕ} {read rest : List α}
    {p : List α × List α} (h : p ∈ occurrencesFrom n k read rest) :
    read ++ rest = p.1 ++ n ++ p.2 := by
  induction k generalizing read rest with
  | zero => cases h
  | succ k ih =>
    rw [occurrencesFrom] at h
    split at h
    · cases h
    · next skipped after hsplit =>
      rw [← splitOnce_append hn hsplit]
      rcases List.mem_cons.mp h with rfl | h
      · simp
      · rw [← ih h]
        simp

lemma eq_of_mem_occurrences (hn : n ≠ []) {s : List α} {p : List α × List α}
    (h : p ∈ occurrences n s) : s = p.1 ++ n ++ p.2 :=
  eq_of_mem_occurrencesFrom hn h

omit [DecidableEq α] in
/-- Two occurrences of a needle, the second after the first: it is behind it, or it begins inside
it. -/
lemma behind_or_overlap {x after a : List α} (h : n ++ after = x ++ n ++ a) :
    (∃ b, x = n ++ b ∧ after = b ++ n ++ a) ∨
      ∃ w y, w ≠ [] ∧ x ++ w = n ∧ w ++ y = n := by
  rw [List.append_assoc, List.append_eq_append_iff] at h
  rcases h with ⟨b, rfl, hafter⟩ | ⟨w, hx, hw⟩
  · exact Or.inl ⟨b, rfl, by rw [hafter, List.append_assoc]⟩
  · by_cases hnil : w = []
    · subst hnil
      rw [List.append_nil] at hx
      exact Or.inl ⟨[], by rw [hx, List.append_nil], by simpa using hw.symm⟩
    · have hlen : w.length ≤ n.length := by
        rw [hx, List.length_append]
        omega
      obtain ⟨y, hy⟩ := List.prefix_of_prefix_length_le ⟨after, hw.symm⟩ ⟨a, rfl⟩ hlen
      exact Or.inr ⟨w, y, hnil, hx.symm, hy⟩

lemma mem_occurrencesFrom_or_overlap (hn : n ≠ []) {k : ℕ} {read b a : List α}
    (hk : (b ++ n ++ a).length < k) :
    (read ++ b, a) ∈ occurrencesFrom n k read (b ++ n ++ a) ∨
      ∃ p ∈ occurrencesFrom n k read (b ++ n ++ a), ∃ x w y,
        x ≠ [] ∧ w ≠ [] ∧ x ++ w = n ∧ w ++ y = n ∧ read ++ b = p.1 ++ x := by
  induction k generalizing read b with
  | zero => omega
  | succ k ih =>
    obtain ⟨⟨skipped, after⟩, hsplit⟩ : ∃ p, splitOnce n (b ++ n ++ a) = some p := by
      rw [← Option.isSome_iff_exists, Option.isSome_iff_ne_none, ne_eq, splitOnce_eq_none_iff hn,
        not_not]
      exact ⟨b, a, rfl⟩
    obtain ⟨heq, hfirst⟩ := (splitOnce_eq_some_iff hn).mp hsplit
    have hlt := length_after_lt hn hsplit
    rw [occurrencesFrom, hsplit]
    dsimp only
    -- the occurrence found is not behind the one asked for
    obtain ⟨x, rfl⟩ : ∃ x, b = skipped ++ x := by
      rw [List.append_assoc, List.append_assoc, List.append_eq_append_iff] at heq
      rcases heq with ⟨x, hx, hrest⟩ | ⟨x, hx, -⟩
      · have hcut : n <+: x ++ n := by
          refine List.prefix_of_prefix_length_le (⟨a, rfl⟩ : n <+: n ++ a) ?_ (by simp)
          rw [hrest, ← List.append_assoc]
          exact List.prefix_append _ _
        obtain ⟨v, hv⟩ := hcut
        have hnil : v = [] := hfirst b v (by rw [hx, List.append_assoc, ← hv, List.append_assoc])
        rw [hnil, List.append_nil] at hv
        have hlen := congrArg List.length hv
        rw [List.length_append] at hlen
        obtain rfl : x = [] := List.length_eq_zero_iff.mp (by omega)
        exact ⟨[], by simpa using hx.symm⟩
      · exact ⟨x, hx⟩
    have hafter : n ++ after = x ++ n ++ a := by simpa using heq.symm
    by_cases hx : x = []
    · subst hx
      rw [List.nil_append, List.append_cancel_left_eq] at hafter
      exact Or.inl (List.mem_cons.mpr (Or.inl (by rw [List.append_nil, hafter])))
    rcases behind_or_overlap hafter with ⟨b, rfl, rfl⟩ | ⟨w, y, hw, hxw, hwy⟩
    · rw [heq] at hk
      rcases @ih (read ++ skipped ++ n) b (by rw [heq] at hlt; omega) with h | h
      · exact Or.inl (List.mem_cons_of_mem _ (by simpa using h))
      · obtain ⟨p, hp, x, w, y, hx, hw, hxw, hwy, hread⟩ := h
        exact Or.inr ⟨p, List.mem_cons_of_mem _ hp, x, w, y, hx, hw, hxw, hwy, by simpa using hread⟩
    · exact Or.inr ⟨_, List.mem_cons_self, x, w, y, hx, hw, hxw, hwy, by simp⟩

/-- An occurrence that is passed over begins inside one that is not. -/
theorem mem_occurrences_or_overlap (hn : n ≠ []) (b a : List α) :
    (b, a) ∈ occurrences n (b ++ n ++ a) ∨
      ∃ p ∈ occurrences n (b ++ n ++ a), ∃ x w y,
        x ≠ [] ∧ w ≠ [] ∧ x ++ w = n ∧ w ++ y = n ∧ b = p.1 ++ x :=
  @mem_occurrencesFrom_or_overlap _ _ _ hn _ [] b a (Nat.lt_succ_self _)

end Search
