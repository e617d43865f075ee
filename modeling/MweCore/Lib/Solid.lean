import MweCore.Lib.Str

/-!
# A text without its whitespace

`solid` is what is left of a text when its whitespace is taken out.  Trimming, cutting into lines
and joining with separators change a text in its whitespace only, which is what the lemmas say:
they leave `solid` as it was.
-/

namespace Str

/-- What is left of a text when its whitespace is taken out. -/
def solid (s : Str) : Str := s.filter fun c => !isWhitespace c

@[simp] lemma solid_nil : solid [] = [] := rfl

@[simp] lemma solid_append (s t : Str) : solid (s ++ t) = solid s ++ solid t :=
  List.filter_append s t

@[simp] lemma solid_flatten (ss : List Str) : solid ss.flatten = (ss.map solid).flatten :=
  List.filter_flatten

lemma solid_eq_nil_iff {s : Str} : solid s = [] ↔ ∀ c ∈ s, isWhitespace c = true := by
  simp [solid]

/-- What is dropped from the start is whitespace. -/
@[simp] lemma solid_trimStart (s : Str) : solid (trimStart s) = solid s := by
  induction s with
  | nil => rfl
  | cons c s ih =>
    by_cases hc : isWhitespace c = true
    · rw [trimStart, List.dropWhile_cons_of_pos hc]
      change solid (trimStart s) = _
      rw [ih]
      simp [solid, hc]
    · rw [trimStart, List.dropWhile_cons_of_neg hc]

/-- What is dropped from the end is whitespace. -/
@[simp] lemma solid_trimEnd (s : Str) : solid (trimEnd s) = solid s := by
  have hstart := solid_trimStart s.reverse
  simp only [solid, trimStart, List.filter_reverse] at hstart
  rw [trimEnd, List.rdropWhile, solid, List.filter_reverse, hstart, List.reverse_reverse]
  rfl

/-- What trimming takes off is whitespace. -/
@[simp] lemma solid_trim (s : Str) : solid (trim s) = solid s := by simp [trim]

/-- A text is trimmed to nothing when it is whitespace. -/
lemma trim_eq_nil_iff {s : Str} : trim s = [] ↔ solid s = [] := by
  constructor
  · intro h
    rw [← solid_trim, h, solid_nil]
  · intro h
    have hblank := solid_eq_nil_iff.mp h
    have hstart : trimStart s = [] := List.dropWhile_eq_nil_iff.mpr hblank
    rw [trim, hstart]
    rfl

/-- A trimmed text begins with its first character that is no whitespace. -/
lemma head?_trim (s : Str) : (trim s).head? = (solid s).head? := by
  cases hstart : trimStart s with
  | nil =>
    have hsolid : solid s = [] := by rw [← solid_trimStart, hstart, solid_nil]
    rw [trim_eq_nil_iff.mpr hsolid, hsolid]
  | cons c t =>
    have hc : isWhitespace c = false := by
      have hhead := List.head_dropWhile_not isWhitespace (l := s)
        (by change trimStart s ≠ []; simp [hstart])
      simpa [show s.dropWhile isWhitespace = c :: t from hstart] using hhead
    have hsolid : solid s = c :: solid t := by
      rw [← solid_trimStart, hstart]
      simp [solid, hc]
    obtain ⟨t', ht'⟩ : ∃ t', trim s = c :: t' := by
      rw [trim, hstart, trimEnd]
      obtain ⟨gone, hgone⟩ := List.rdropWhile_prefix (p := isWhitespace) (l := c :: t)
      cases hkept : (c :: t).rdropWhile isWhitespace with
      | nil =>
        have hall := List.rdropWhile_eq_nil_iff.mp hkept c List.mem_cons_self
        simp [hc] at hall
      | cons d t' =>
        rw [hkept] at hgone
        obtain ⟨rfl, -⟩ := List.cons.inj hgone
        exact ⟨t', rfl⟩
    rw [ht', hsolid]
    rfl

/-- A trimmed text does not end in whitespace. -/
lemma getLast?_trim {s : Str} {c : Char} (h : c ∈ (trim s).getLast?) : isWhitespace c = false := by
  rw [Option.mem_def, List.getLast?_eq_some_iff] at h
  obtain ⟨front, hfront⟩ := h
  have hne : (trimStart s).rdropWhile isWhitespace ≠ [] := by
    change trim s ≠ []
    simp [hfront]
  have hlast := List.rdropWhile_last_not isWhitespace (trimStart s) hne
  have hget : ((trimStart s).rdropWhile isWhitespace).getLast hne = c := by
    have htrim : (trimStart s).rdropWhile isWhitespace = front ++ [c] := hfront
    simp [htrim]
  rw [hget, Bool.not_eq_true] at hlast
  exact hlast

/-- Whitespace behind a text is no part of it when it is trimmed. -/
lemma length_trim_append_le (a : Str) {b : Str} (hb : solid b = []) :
    (trim (a ++ b)).length ≤ a.length := by
  have hblank := solid_eq_nil_iff.mp hb
  have hend : ∀ s, trimEnd (s ++ b) = trimEnd s := by
    intro s
    have hrev : ∀ c ∈ b.reverse, isWhitespace c = true := fun c hc => hblank c (by simpa using hc)
    rw [trimEnd, trimEnd, List.rdropWhile, List.reverse_append,
      List.dropWhile_append_of_pos hrev, List.rdropWhile]
  rw [trim, trimStart, List.dropWhile_append]
  split
  · rw [List.dropWhile_eq_nil_iff.mpr hblank]
    exact Nat.zero_le _
  · rw [hend]
    calc (trimEnd (a.dropWhile isWhitespace)).length
        ≤ (a.dropWhile isWhitespace).length := (List.rdropWhile_prefix _ _).length_le
      _ ≤ a.length := (List.dropWhile_suffix _).length_le

/-! ## Lines -/

/-- Cutting a text into lines takes line ends out, which are whitespace. -/
lemma solid_lines (s : Str) : ((lines s).map solid).flatten = solid s := by
  have hall : (lines s).map solid = (splitInclusive '\n' s).map solid := by
    rw [lines, List.map_map]
    refine List.map_congr_left fun line _ => ?_
    have hcut : ∀ (c : Char) (t front : Str), isWhitespace c = true →
        stripSuffix [c] t = some front → solid front = solid t := by
      intro c t front hc h
      unfold stripSuffix at h
      split at h
      · next hsuffix =>
        obtain ⟨front', rfl⟩ := List.isSuffixOf_iff_suffix.mp hsuffix
        obtain rfl : front' = front := by simpa using h
        simp [solid, hc]
      · exact absurd h (by simp)
    rw [Function.comp_apply]
    cases hbreak : stripSuffix ['\n'] line with
    | none => rfl
    | some body =>
      rw [← hcut '\n' line body (by decide) hbreak]
      change solid ((stripSuffix ['\r'] body).getD body) = _
      cases hcr : stripSuffix ['\r'] body with
      | none => rfl
      | some front => exact hcut '\r' body front (by decide) hcr
  rw [hall, ← solid_flatten, splitInclusive_flatten]

/-- Joining texts with a separator that is whitespace. -/
lemma solid_intercalate {sep : Str} (hsep : solid sep = []) (ss : List Str) :
    solid (List.intercalate sep ss) = (ss.map solid).flatten := by
  induction ss with
  | nil => rfl
  | cons s ss ih =>
    cases ss with
    | nil => simp [List.intercalate]
    | cons t ss =>
      have hjoin : List.intercalate sep (s :: t :: ss) =
          s ++ (sep ++ List.intercalate sep (t :: ss)) := by simp [List.intercalate]
      rw [hjoin, solid_append, solid_append, hsep, ih]
      simp

end Str
