import MweCore.Lib.Str

/-!
# Texts as lists of lines

`breakLines` cuts a text at its line feeds, so that a text is its lines joined again and what is
appended after a line feed adds its own lines: `breakLines_append_cons`.  A text pasted in the
middle of a line lends that line its first one and ends in another, and only the lines between are
its own: `mem_tail_breakLines_append` is what a proof about pasted text uses.

`fromLine` is the part of a text that begins with the first line of a kind.
-/

namespace Str

/-! ## Lines -/

/-- The lines of a text, with nothing stripped. -/
def breakLines (s : Str) : List Str := s.splitOn '\n'

/-- A line without a carriage return at its end. -/
def stripCr (l : Str) : Str := (stripSuffix ['\r'] l).getD l

lemma breakLines_ne_nil (s : Str) : breakLines s ≠ [] := List.splitOn_ne_nil _ _

lemma breakLines_append_cons (a b : Str) :
    breakLines (a ++ '\n' :: b) = breakLines a ++ breakLines b :=
  List.splitOn_append_cons_self a b

lemma breakLines_of_notMem {s : Str} (h : '\n' ∉ s) : breakLines s = [s] :=
  List.splitOn_eq_singleton h

lemma breakLines_cons (c : Char) (s : Str) : breakLines (c :: s) =
    if c = '\n' then [] :: breakLines s else (breakLines s).modifyHead (c :: ·) := by
  simp only [breakLines, List.splitOn_cons_eq_if_modifyHead, beq_iff_eq]

/-- The first line of a text is where the text begins. -/
lemma head_breakLines_prefix (s : Str) : (breakLines s).head (breakLines_ne_nil s) <+: s := by
  induction s with
  | nil => exact List.prefix_rfl
  | cons c s ih =>
    have hcons := breakLines_cons c s
    split_ifs at hcons with hc
    · simp [hcons]
    · obtain ⟨l, ls, hls⟩ := List.exists_cons_of_ne_nil (breakLines_ne_nil s)
      simp only [hls, List.head_cons, List.modifyHead_cons] at ih hcons
      simp [hcons, List.cons_prefix_cons, ih]

/-- Two texts share a line where they meet. -/
lemma breakLines_append (a b : Str) : breakLines (a ++ b) =
    (breakLines a).dropLast ++ ((breakLines a).getLast (breakLines_ne_nil a) ++
      (breakLines b).head (breakLines_ne_nil b)) :: (breakLines b).tail := by
  induction a with
  | nil => simp [breakLines]
  | cons c a ih =>
    obtain ⟨l, ls, hls⟩ := List.exists_cons_of_ne_nil (breakLines_ne_nil a)
    have hcons := breakLines_cons c a
    have happ := breakLines_cons c (a ++ b)
    by_cases hc : c = '\n'
    · rw [if_pos hc] at hcons happ
      simp only [List.cons_append, happ, hcons, ih, hls, List.dropLast_cons_cons,
        List.getLast_cons_cons]
    · rw [if_neg hc, hls] at hcons
      rw [if_neg hc, ih] at happ
      rw [List.cons_append, happ]
      cases ls with
      | nil => simp [hcons, hls]
      | cons m ms => simp [hcons, hls]

/-- Text in front of a text goes on the same line. -/
lemma breakLines_append_of_notMem {a : Str} (h : '\n' ∉ a) (b : Str) : breakLines (a ++ b) =
    (a ++ (breakLines b).head (breakLines_ne_nil b)) :: (breakLines b).tail := by
  simp only [breakLines_append, breakLines_of_notMem h, List.dropLast_singleton,
    List.getLast_singleton, List.nil_append]

/-- The later lines of two texts put together: the last one of the first text goes on. -/
lemma mem_tail_breakLines_append {a b l : Str} (h : l ∈ (breakLines (a ++ b)).tail) :
    l ∈ (breakLines b).tail ∨ l ∈ (breakLines a).tail ∨
      ∃ m ∈ (breakLines a).tail, ∃ p, p <+: b ∧ l = m ++ p := by
  rw [breakLines_append] at h
  obtain ⟨m, ms, hms⟩ := List.exists_cons_of_ne_nil (breakLines_ne_nil a)
  rcases List.eq_nil_or_concat ms with rfl | ⟨ms, last, rfl⟩
  · simp only [hms, List.dropLast_singleton, List.nil_append, List.tail_cons] at h
    exact Or.inl h
  · have hsplit : breakLines a = (m :: ms) ++ [last] := by simpa using hms
    have hdrop : (breakLines a).dropLast = m :: ms := by rw [hsplit, List.dropLast_concat]
    have hlast : (breakLines a).getLast (breakLines_ne_nil a) = last := by simp [hsplit]
    rw [hdrop, hlast, List.cons_append, List.tail_cons, List.mem_append, List.mem_cons] at h
    rw [hsplit, List.cons_append, List.tail_cons]
    rcases h with h | h | h
    · exact Or.inr (Or.inl (by simp [h]))
    · exact Or.inr (Or.inr ⟨last, by simp, _, head_breakLines_prefix b, h⟩)
    · exact Or.inl h

/-- No line holds a line feed. -/
lemma notMem_of_mem_breakLines {s l : Str} (h : l ∈ breakLines s) : '\n' ∉ l := by
  induction s generalizing l with
  | nil =>
    obtain rfl : l = [] := by simpa [breakLines] using h
    exact List.not_mem_nil
  | cons c s ih =>
    rw [breakLines_cons] at h
    split_ifs at h with hc
    · rcases List.mem_cons.mp h with rfl | h
      · exact List.not_mem_nil
      · exact ih h
    · obtain ⟨m, ms, hms⟩ := List.exists_cons_of_ne_nil (breakLines_ne_nil s)
      rw [hms, List.modifyHead_cons, List.mem_cons] at h
      rcases h with rfl | h
      · rw [List.mem_cons, not_or]
        exact ⟨Ne.symm hc, ih (by simp [hms])⟩
      · exact ih (by simp [hms, h])

/-- A later line of a text stands after a line feed. -/
lemma exists_append_of_mem_tail {s l : Str} (h : l ∈ (breakLines s).tail) :
    ∃ u v, s = u ++ '\n' :: (l ++ v) := by
  induction s with
  | nil => simp [breakLines] at h
  | cons c s ih =>
    rw [breakLines_cons] at h
    obtain ⟨m, ms, hms⟩ := List.exists_cons_of_ne_nil (breakLines_ne_nil s)
    have hlater : l ∈ ms → ∃ u v, c :: s = u ++ '\n' :: (l ++ v) := by
      intro hl
      obtain ⟨u, v, hs⟩ := ih (by simpa [hms] using hl)
      exact ⟨c :: u, v, by rw [hs, List.cons_append]⟩
    split_ifs at h with hc
    · rw [hms, List.tail_cons, List.mem_cons] at h
      rcases h with rfl | hl
      · obtain ⟨v, hv⟩ := head_breakLines_prefix s
        simp only [hms, List.head_cons] at hv
        exact ⟨[], v, by rw [hc, hv, List.nil_append]⟩
      · exact hlater hl
    · rw [hms, List.modifyHead_cons, List.tail_cons] at h
      exact hlater h

/-- A text is its lines joined. -/
lemma intercalate_breakLines (s : Str) : List.intercalate ['\n'] (breakLines s) = s :=
  List.intercalate_splitOn '\n'

/-- A beginning of two texts put together ends in the first or goes on in the second. -/
lemma prefix_append_cases {n m p : Str} (h : n <+: m ++ p) :
    n <+: m ∨ ∃ t, n = m ++ t ∧ t <+: p := by
  obtain ⟨u, hu⟩ := h
  rcases List.append_eq_append_iff.mp hu with ⟨t, hm, -⟩ | ⟨t, hn, hp⟩
  · exact Or.inl ⟨t, hm.symm⟩
  · exact Or.inr ⟨t, hn, u, hp.symm⟩

/-- A beginning that does not have the next character is already complete. -/
lemma prefix_of_append_cons {n m p : Str} {c : Char} (hc : c ∉ n) (h : n <+: m ++ c :: p) :
    n <+: m := by
  rcases prefix_append_cases h with h | ⟨t, rfl, ht⟩
  · exact h
  · cases t with
    | nil => rw [List.append_nil]
    | cons d t =>
      obtain ⟨rfl, -⟩ := List.cons_prefix_cons.mp ht
      exact absurd (by simp) hc

/-! ## Terminated lines -/

/-- The pieces up to each line feed of a text that ends with one. -/
lemma splitInclusive_append_newline (s : Str) :
    splitInclusive '\n' (s ++ ['\n']) = (breakLines s).map (· ++ ['\n']) := by
  induction s with
  | nil => rfl
  | cons c s ih =>
    rw [List.cons_append, splitInclusive, ih, breakLines_cons]
    obtain ⟨l, ls, hls⟩ := List.exists_cons_of_ne_nil (breakLines_ne_nil s)
    split_ifs with hc
    · simp [hc]
    · simp [hls]

/-- The lines of a text that ends with a line feed. -/
lemma lines_append_newline (s : Str) : lines (s ++ ['\n']) = (breakLines s).map stripCr := by
  rw [lines, splitInclusive_append_newline, List.map_map]
  refine List.map_congr_left fun l _ => ?_
  have hsuffix : stripSuffix ['\n'] (l ++ ['\n']) = some l := by
    rw [stripSuffix, if_pos (List.isSuffixOf_iff_suffix.mpr (List.suffix_append l ['\n']))]
    simp
  simp only [Function.comp_apply, hsuffix, stripCr]

lemma stripCr_eq (l : Str) : l = stripCr l ∨ l = stripCr l ++ ['\r'] := by
  unfold stripCr stripSuffix
  split_ifs with h
  · right
    obtain ⟨t, rfl⟩ := List.isSuffixOf_iff_suffix.mp h
    simp
  · exact Or.inl rfl

/-- Only a carriage return can be stripped. -/
lemma stripCr_of_getLast? {l : Str} (h : l.getLast? ≠ some '\r') : stripCr l = l := by
  rcases stripCr_eq l with heq | heq
  · exact heq.symm
  · rw [heq] at h
    simp at h

/-- A beginning without carriage returns is there before the stripping if and only if it is there
after it. -/
lemma prefix_stripCr_iff {p l : Str} (hp : '\r' ∉ p) : p <+: stripCr l ↔ p <+: l := by
  constructor
  · intro h
    rcases stripCr_eq l with heq | heq
    · rw [heq]
      exact h
    · rw [heq]
      exact h.trans (List.prefix_append _ _)
  · intro h
    rcases stripCr_eq l with heq | heq
    · rw [← heq]
      exact h
    · rw [heq, List.prefix_concat_iff] at h
      rcases h with rfl | h
      · exact absurd (by simp) hp
      · exact h

/-! ## The part that begins with a line of a kind -/

/-- A text from its first line of a kind on. -/
def fromLine (kind : Str → Bool) (s : Str) : Str :=
  List.intercalate ['\n'] ((breakLines s).dropWhile fun l => !kind l)

lemma intercalate_append {a b : List Str} (ha : a ≠ []) (hb : b ≠ []) :
    List.intercalate ['\n'] (a ++ b) =
      List.intercalate ['\n'] a ++ '\n' :: List.intercalate ['\n'] b := by
  induction a with
  | nil => exact absurd rfl ha
  | cons l a ih =>
    cases a with
    | nil =>
      obtain ⟨m, b, rfl⟩ := List.exists_cons_of_ne_nil hb
      simp [List.intercalate_cons_cons]
    | cons m a =>
      have hrest := ih (by simp)
      rw [List.cons_append] at hrest
      rw [List.cons_append, List.cons_append, List.intercalate_cons_cons, hrest,
        List.intercalate_cons_cons]
      simp

/-- Nothing that begins a new line changes what was there. -/
lemma fromLine_prefix_append (kind : Str → Bool) (a b : Str) :
    fromLine kind a <+: fromLine kind (a ++ '\n' :: b) := by
  rw [fromLine, fromLine, breakLines_append_cons, List.dropWhile_append]
  split_ifs with hnone
  · rw [List.isEmpty_iff.mp hnone]
    exact List.nil_prefix
  · rw [List.isEmpty_iff] at hnone
    rw [intercalate_append hnone (breakLines_ne_nil b)]
    exact List.prefix_append _ _

end Str
