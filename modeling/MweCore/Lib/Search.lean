import Mathlib

/-!
# Searching in lists: the first occurrence of a needle

A scanner that walks a text by hand asks one question over and over: where does the next
occurrence of a fixed needle stand, and what is on each side of it.  `splitOnce` answers it on
lists over any type with decidable equality, and `splitOnce_eq_some_iff` is its whole
specification: the input is cut as `a ++ n ++ b`, and no occurrence of `n` ends before the one
found (`FirstAt`).

The lemmas below are what a scanner's proofs use: an answer found in a prefix survives whatever
is appended (`splitOnce_append_right`), and a needle none of whose proper suffixes is one of its
prefixes (`Borderless`) is first exactly where the text before it does not contain it.
-/

namespace Search

variable {α : Type*} [DecidableEq α]

/-- Cut `s` at the first occurrence of the needle `n`: what stands before it and what stands
after it, or `none` when `n` does not occur. -/
def splitOnce (n : List α) : List α → Option (List α × List α)
  | [] => none
  | c :: cs =>
    if n.isPrefixOf (c :: cs) then some ([], (c :: cs).drop n.length)
    else (splitOnce n cs).map fun p => (c :: p.1, p.2)

/-- The occurrence of `n` right after `a` is the first one: no occurrence ends earlier. -/
def FirstAt (n a : List α) : Prop :=
  ∀ u v, a ++ n = u ++ n ++ v → v = []

omit [DecidableEq α] in
/-- At the very beginning every needle is first. -/
lemma firstAt_nil (n : List α) : FirstAt n [] := by
  intro u v h
  have hlen := congrArg List.length h
  simp only [List.nil_append, List.length_append] at hlen
  exact List.length_eq_zero_iff.mp (by omega)

omit [DecidableEq α] in
/-- An occurrence is first after `c :: a` when it is first after `a` and none starts at `c`. -/
lemma firstAt_cons_iff {n a : List α} {c : α} :
    FirstAt n (c :: a) ↔ ¬ n <+: c :: (a ++ n) ∧ FirstAt n a := by
  constructor
  · intro h
    refine ⟨fun ⟨v, hv⟩ => ?_, fun u v huv => h (c :: u) v (by simp [huv])⟩
    have hnil : v = [] := h [] v (by simpa using hv.symm)
    have hlen := congrArg List.length hv
    simp only [hnil, List.append_nil, List.length_cons, List.length_append] at hlen
    omega
  · rintro ⟨hpre, h⟩ u v huv
    cases u with
    | nil => exact absurd ⟨v, by simpa using huv.symm⟩ hpre
    | cons d u =>
      simp only [List.cons_append, List.cons.injEq] at huv
      exact h u v huv.2

omit [DecidableEq α] in
/-- A needle of one element is first after a list that does not have it. -/
lemma firstAt_singleton {x : α} {a : List α} (h : x ∉ a) : FirstAt [x] a := by
  induction a with
  | nil => exact firstAt_nil [x]
  | cons c a ih =>
    rw [List.mem_cons, not_or] at h
    rw [firstAt_cons_iff]
    refine ⟨?_, ih h.2⟩
    intro hpre
    exact h.1 (List.cons_prefix_cons.mp hpre).1

omit [DecidableEq α] in
/-- Where the needle is a prefix of `c :: a ++ n ++ b` it is one already without `b`. -/
lemma prefix_of_prefix_append {n a b : List α} {c : α} (h : n <+: c :: (a ++ n ++ b)) :
    n <+: c :: (a ++ n) := by
  have hpre : c :: (a ++ n) <+: c :: (a ++ n ++ b) := ⟨b, by simp⟩
  exact List.prefix_of_prefix_length_le h hpre (by simp; omega)

/-- The specification of `splitOnce`. -/
theorem splitOnce_eq_some_iff {n s a b : List α} (hn : n ≠ []) :
    splitOnce n s = some (a, b) ↔ s = a ++ n ++ b ∧ FirstAt n a := by
  constructor
  · intro h
    induction s generalizing a b with
    | nil => simp [splitOnce] at h
    | cons c cs ih =>
      rw [splitOnce] at h
      split at h
      · next hpre =>
        obtain ⟨rfl, rfl⟩ : a = [] ∧ b = (c :: cs).drop n.length := by simpa using h.symm
        obtain ⟨t, ht⟩ := List.isPrefixOf_iff_prefix.mp hpre
        refine ⟨?_, firstAt_nil n⟩
        rw [← ht]
        simp
      · next hpre =>
        obtain ⟨⟨a', b'⟩, hsplit, heq⟩ := Option.map_eq_some_iff.mp h
        obtain ⟨rfl, rfl⟩ : c :: a' = a ∧ b' = b := by simpa using heq
        obtain ⟨rfl, hfirst⟩ := ih hsplit
        refine ⟨by simp, firstAt_cons_iff.mpr ⟨fun hc => hpre ?_, hfirst⟩⟩
        obtain ⟨t, ht⟩ := hc
        exact List.isPrefixOf_iff_prefix.mpr ⟨t ++ b', by rw [← List.append_assoc, ht]; simp⟩
  · rintro ⟨rfl, hfirst⟩
    induction a with
    | nil =>
      obtain ⟨d, n, rfl⟩ := List.exists_cons_of_ne_nil hn
      have hpre : (d :: n).isPrefixOf (d :: (n ++ b)) = true :=
        List.isPrefixOf_iff_prefix.mpr ⟨b, rfl⟩
      rw [List.nil_append, List.cons_append, splitOnce, if_pos hpre]
      simp
    | cons c a ih =>
      obtain ⟨hpre, hrest⟩ := firstAt_cons_iff.mp hfirst
      have hno : ¬ n.isPrefixOf (c :: (a ++ n ++ b)) = true := fun h =>
        hpre (prefix_of_prefix_append (List.isPrefixOf_iff_prefix.mp h))
      rw [List.cons_append, List.cons_append, splitOnce, if_neg hno, ih hrest]
      rfl

/-- The needle occurs exactly when `splitOnce` finds it. -/
theorem splitOnce_eq_none_iff {n s : List α} (hn : n ≠ []) :
    splitOnce n s = none ↔ ¬ n <:+: s := by
  induction s with
  | nil => simp [splitOnce, hn]
  | cons c cs ih =>
    rw [splitOnce, List.infix_cons_iff, not_or]
    split
    · next hpre => simp [List.isPrefixOf_iff_prefix.mp hpre]
    · next hpre =>
      have hno : ¬ n <+: c :: cs := fun h => hpre (List.isPrefixOf_iff_prefix.mpr h)
      rw [Option.map_eq_none_iff, ih]
      exact ⟨fun h => ⟨hno, h⟩, fun h => h.2⟩

/-- The pieces of a successful cut put the input back together. -/
lemma splitOnce_append {n s a b : List α} (hn : n ≠ []) (h : splitOnce n s = some (a, b)) :
    a ++ n ++ b = s :=
  ((splitOnce_eq_some_iff hn).mp h).1.symm

/-- A successful cut cuts at the first occurrence. -/
lemma firstAt_of_splitOnce {n s a b : List α} (hn : n ≠ []) (h : splitOnce n s = some (a, b)) :
    FirstAt n a :=
  ((splitOnce_eq_some_iff hn).mp h).2

/-- A needle that is first after `a` is found there, whatever follows it. -/
lemma splitOnce_of_firstAt {n a : List α} (hn : n ≠ []) (h : FirstAt n a) (b : List α) :
    splitOnce n (a ++ n ++ b) = some (a, b) :=
  (splitOnce_eq_some_iff hn).mpr ⟨rfl, h⟩

/-- What is found in a text is found at the same place when more text follows. -/
lemma splitOnce_append_right {n s a b : List α} (hn : n ≠ []) (h : splitOnce n s = some (a, b))
    (t : List α) : splitOnce n (s ++ t) = some (a, b ++ t) := by
  obtain ⟨rfl, hfirst⟩ := (splitOnce_eq_some_iff hn).mp h
  exact (splitOnce_eq_some_iff hn).mpr ⟨by simp, hfirst⟩

/-- The part after the needle is shorter than the input. -/
lemma length_lt_of_splitOnce {n s a b : List α} (hn : n ≠ []) (h : splitOnce n s = some (a, b)) :
    b.length < s.length := by
  have hlen := congrArg List.length (splitOnce_append hn h)
  have hpos : 0 < n.length := List.length_pos_iff.mpr hn
  simp only [List.length_append] at hlen
  omega

/-- A needle that occurs is found. -/
lemma exists_splitOnce_of_infix {n s : List α} (hn : n ≠ []) (h : n <:+: s) :
    ∃ a b, splitOnce n s = some (a, b) := by
  cases hs : splitOnce n s with
  | none => exact absurd h ((splitOnce_eq_none_iff hn).mp hs)
  | some p => exact ⟨p.1, p.2, rfl⟩

/-- Text that does not contain the needle's first element is skipped. -/
lemma splitOnce_append_left {n p : List α} {d : α} (h : d ∉ p) (s : List α) :
    splitOnce (d :: n) (p ++ s) = (splitOnce (d :: n) s).map fun q => (p ++ q.1, q.2) := by
  induction p with
  | nil => simp
  | cons c p ih =>
    have hne : ¬ d = c := fun hdc => h (by simp [hdc])
    have hrest : d ∉ p := fun hd => h (List.mem_cons_of_mem c hd)
    have hno : ¬ (d :: n).isPrefixOf (c :: (p ++ s)) = true := by simp [List.isPrefixOf, hne]
    rw [List.cons_append, splitOnce, if_neg hno, ih hrest, Option.map_map]
    rfl

omit [DecidableEq α] in
/-- Before the first occurrence there is none. -/
lemma not_infix_of_firstAt {n a : List α} (hn : n ≠ []) (h : FirstAt n a) : ¬ n <:+: a := by
  rintro ⟨u, v, rfl⟩
  have hnil : v ++ n = [] := h u (v ++ n) (by simp)
  exact hn (List.append_eq_nil_iff.mp hnil).2

/-- No proper, nonempty suffix of the needle is one of its prefixes, so two occurrences of it
never overlap. -/
def Borderless (n : List α) : Prop :=
  ∀ p q, p ≠ [] → q ≠ [] → n = p ++ q → ¬ q <+: n

omit [DecidableEq α] in
/-- A borderless needle is first after every text that does not contain it. -/
lemma Borderless.firstAt {n a : List α} (hn : Borderless n) (h : ¬ n <:+: a) : FirstAt n a := by
  intro u v huv
  by_contra hv
  -- the second occurrence starts inside `a`; it either ends there or overlaps the first one
  rcases List.append_eq_append_iff.mp (by simpa using huv : a ++ n = u ++ (n ++ v)) with
    ⟨x, hu, hx⟩ | ⟨x, ha, hx⟩
  · have hlen := congrArg List.length hx
    simp only [List.length_append] at hlen
    exact hv (List.length_eq_zero_iff.mp (by omega))
  · rcases List.append_eq_append_iff.mp hx with ⟨y, hy, _⟩ | ⟨y, hy, hny⟩
    · exact h ⟨u, y, by rw [ha, hy]; simp⟩
    · have hxne : x ≠ [] := by
        rintro rfl
        have hlen := congrArg List.length hx
        simp only [List.length_append, List.length_nil] at hlen
        exact hv (List.length_eq_zero_iff.mp (by omega))
      by_cases hyne : y = []
      · subst hyne
        exact h ⟨u, [], by rw [ha, hy]; simp⟩
      · exact hn x y hxne hyne hy ⟨v, hny.symm⟩

/-- A needle does not begin in text that does not contain its first element. -/
lemma infix_append_left_iff {n p s : List α} {d : α} (h : d ∉ p) :
    d :: n <:+: p ++ s ↔ d :: n <:+: s := by
  have hmap : splitOnce (d :: n) (p ++ s) = none ↔ splitOnce (d :: n) s = none := by
    rw [splitOnce_append_left h, Option.map_eq_none_iff]
  rwa [splitOnce_eq_none_iff (by simp), splitOnce_eq_none_iff (by simp), not_iff_not] at hmap

omit [DecidableEq α] in
/-- A needle does not straddle an element it does not contain. -/
lemma infix_append_cons {n a b : List α} {c : α} (hn : n ≠ []) (hc : c ∉ n)
    (h : n <:+: a ++ c :: b) : n <:+: a ∨ n <:+: b := by
  obtain ⟨u, v, huv⟩ := h
  rcases List.append_eq_append_iff.mp huv with ⟨x, ha, _⟩ | ⟨x, hx, hv⟩
  · exact .inl ⟨u, x, ha.symm⟩
  · cases x with
    | nil => exact .inl ⟨u, [], by simpa using hx⟩
    | cons y x =>
      obtain ⟨rfl, rfl⟩ : c = y ∧ b = x ++ v := by simpa using hv
      rcases List.append_eq_append_iff.mp hx with ⟨z, _, hz⟩ | ⟨z, _, hz⟩
      · exact absurd (by simp [hz]) hc
      · cases z with
        | nil =>
          obtain rfl : c :: x = n := by simpa using hz
          exact absurd List.mem_cons_self hc
        | cons w z =>
          obtain ⟨-, rfl⟩ : c = w ∧ x = z ++ n := by simpa using hz
          exact .inr ⟨z, v, rfl⟩

omit [DecidableEq α] in
/-- Every occurrence of a needle begins at or after its first one. -/
lemma FirstAt.prefix_of_eq {n a b u v : List α} (h : FirstAt n a)
    (huv : a ++ n ++ b = u ++ n ++ v) : a <+: u := by
  rcases List.append_eq_append_iff.mp (by simpa using huv : a ++ (n ++ b) = u ++ (n ++ v)) with
    ⟨x, hu, _⟩ | ⟨x, ha, hx⟩
  · exact ⟨x, hu.symm⟩
  · -- the occurrence after `u` ends inside `a ++ n`, so it is the first one
    have hend : ∃ y, x ++ n = n ++ y := by
      have hpre : n <+: x ++ n := by
        have hwhole : n <+: x ++ n ++ b := ⟨v, by simpa using hx⟩
        exact List.prefix_of_prefix_length_le hwhole ⟨b, rfl⟩ (by simp)
      obtain ⟨y, hy⟩ := hpre
      exact ⟨y, hy.symm⟩
    obtain ⟨y, hy⟩ := hend
    have hnil : y = [] := h u y (by rw [ha]; simp [hy])
    have hlen := congrArg List.length hy
    simp only [hnil, List.append_nil, List.length_append] at hlen
    have hx : x = [] := List.length_eq_zero_iff.mp (by omega)
    exact ⟨[], by simp [ha, hx]⟩

omit [DecidableEq α] in
/-- In front of a text in which the needle is first may stand text without the needle, closed by an
element the needle does not have. -/
lemma FirstAt.append_cons {n p a : List α} {c : α} (ha : FirstAt n a) (hc : c ∉ n)
    (hn : n ≠ []) (hp : ¬ n <:+: p) : FirstAt n (p ++ c :: a) := by
  intro u v huv
  rcases List.append_eq_append_iff.mp (by simpa using huv : p ++ (c :: (a ++ n)) = u ++ (n ++ v))
    with ⟨x, hu, hx⟩ | ⟨x, hp', hx⟩
  · cases x with
    | nil =>
      cases n with
      | nil => exact absurd rfl hn
      | cons d n => exact absurd (by simp at hx; simp [hx.1]) hc
    | cons d x =>
      obtain ⟨-, hx⟩ : c = d ∧ a ++ n = x ++ (n ++ v) := by simpa using hx
      exact ha x v (by simpa using hx)
  · rcases List.append_eq_append_iff.mp hx with ⟨y, hy, _⟩ | ⟨y, _, hy⟩
    · exact absurd ⟨u, y, by rw [hp', hy]; simp⟩ hp
    · cases y with
      | nil => exact absurd ⟨u, [], by simp_all⟩ hp
      | cons d y =>
        obtain ⟨rfl, -⟩ : c = d ∧ _ := by simpa using hy
        simp_all

/-- The first occurrence of a single element. -/
lemma splitOnce_singleton {p : List α} {d : α} (h : d ∉ p) (s : List α) :
    splitOnce [d] (p ++ d :: s) = some (p, s) := by
  rw [splitOnce_append_left h]
  simp [splitOnce]

omit [DecidableEq α] in
/-- Joined pieces start with the first piece. -/
lemma exists_intercalate_cons (c : α) (w : List α) (ws : List (List α)) :
    ∃ t, List.intercalate [c] (w :: ws) = w ++ t := by
  cases ws with
  | nil => exact ⟨[], by simp [List.intercalate]⟩
  | cons x ws => exact ⟨c :: List.intercalate [c] (x :: ws), by simp [List.intercalate]⟩

omit [DecidableEq α] in
/-- Joined pieces end with the last piece. -/
lemma exists_intercalate_concat (c : α) (ws : List (List α)) (w : List α) :
    ∃ t, List.intercalate [c] (ws ++ [w]) = t ++ w := by
  induction ws with
  | nil => exact ⟨[], by simp [List.intercalate]⟩
  | cons x ws ih =>
    obtain ⟨t, ht⟩ := ih
    cases ws with
    | nil => exact ⟨x ++ [c], by simp [List.intercalate]⟩
    | cons y ws => exact ⟨x ++ c :: t, by simp [List.intercalate] at ht ⊢; rw [ht]⟩

omit [DecidableEq α] in
/-- An element of joined pieces is the separator or stands in a piece. -/
lemma mem_intercalate {c x : α} {ws : List (List α)} (h : x ∈ List.intercalate [c] ws) :
    x = c ∨ ∃ w ∈ ws, x ∈ w := by
  induction ws with
  | nil => simp [List.intercalate] at h
  | cons w ws ih =>
    cases ws with
    | nil => exact .inr ⟨w, List.mem_cons_self, by simpa [List.intercalate] using h⟩
    | cons y ws =>
      have hjoin : List.intercalate [c] (w :: y :: ws) =
          w ++ c :: List.intercalate [c] (y :: ws) := by simp [List.intercalate]
      rw [hjoin, List.mem_append, List.mem_cons] at h
      rcases h with h | h | h
      · exact .inr ⟨w, List.mem_cons_self, h⟩
      · exact .inl h
      · rcases ih h with h | ⟨z, hz, hx⟩
        · exact .inl h
        · exact .inr ⟨z, List.mem_cons_of_mem w hz, hx⟩

omit [DecidableEq α] in
/-- A needle without the separator occurs in joined pieces only when it occurs in one. -/
lemma not_infix_intercalate {n : List α} {c : α} {ws : List (List α)} (hn : n ≠ []) (hc : c ∉ n)
    (hws : ∀ w ∈ ws, ¬ n <:+: w) : ¬ n <:+: List.intercalate [c] ws := by
  induction ws with
  | nil => simpa [List.intercalate] using hn
  | cons w ws ih =>
    have hw := hws w List.mem_cons_self
    have hrest := ih fun x hx => hws x (List.mem_cons_of_mem w hx)
    cases ws with
    | nil => simpa [List.intercalate] using hw
    | cons x ws =>
      have hjoin : List.intercalate [c] (w :: x :: ws) =
          w ++ c :: List.intercalate [c] (x :: ws) := by simp [List.intercalate]
      rw [hjoin]
      intro h
      rcases infix_append_cons hn hc h with h | h
      · exact hw h
      · exact hrest h

omit [DecidableEq α] in
/-- A doubled element is first after a text that neither contains it nor ends with the element. -/
lemma firstAt_pair {a : List α} {d : α} (h : ¬ [d, d] <:+: a) (hlast : a.getLast? ≠ some d) :
    FirstAt [d, d] a := by
  intro u v huv
  rcases List.eq_nil_or_concat v with rfl | ⟨v, x, rfl⟩
  · rfl
  · have hshort : a ++ [d] = u ++ [d, d] ++ v := by
      have hends : (a ++ [d]) ++ [d] = (u ++ [d, d] ++ v) ++ [x] := by simpa using huv
      exact (List.append_inj' hends rfl).1
    rcases List.eq_nil_or_concat v with rfl | ⟨v, y, rfl⟩
    · have ha : a ++ [d] = (u ++ [d]) ++ [d] := by simpa using hshort
      exact absurd (by rw [(List.append_inj' ha rfl).1]; simp) hlast
    · have ha : a ++ [d] = (u ++ [d, d] ++ v) ++ [y] := by simpa using hshort
      exact absurd ⟨u, v, (List.append_inj' ha rfl).1.symm⟩ h

end Search
