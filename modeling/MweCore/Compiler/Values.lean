import MweCore.Capture.Words
import MweCore.Compiler.Figures
import MweCore.Compiler.Leaf

/-!
# What a replacement loses

`orphanedValues` lists the figures of a text that another has neither lost for a new one nor kept.
A figure is read by the words beside it: a month or an hour word makes it a date, an article makes
it a name, digits before or after it make it part of a longer number.  The words are taken across
the ends of sentences, so that what stands before and after a verbatim copy of a text bears on it.

`copy_loses_nothing_iff` says when a copy loses nothing: every figure is read in its place
(`StandsClear`), or stated beside the copy, or argued for.  `copy_in_march_loses_its_figure` is a
text that loses its only one.
-/

namespace Mwe

open Str

namespace Compiler

variable (letters : Letters)

/-! ## Values -/

/-- A value of a text, and the words it stands beside. -/
structure ValueInPlace where
  canonical : Str
  written : Str
  near : List Str

/-- Some words from a position on. -/
def written (words : List Str) (i n : ℕ) : Str := List.intercalate [' '] ((words.drop i).take n)

/-- The value that some words from a position on are. -/
def valueIn (words : List Str) (i n : ℕ) : ValueInPlace where
  canonical := canonicalFigure (written words i n)
  written := written words i n
  near := (beside words i).filter isACompanion

/-- How many words the value at a position has, if there is one. -/
def valueLength (words : List Str) (i : ℕ) : Option ℕ :=
  match anIdentifierAt words i with
  | some n => some (min (i + n) words.length - i)
  | none => if readsAsAValue letters words i then some 1 else none

/-- The values from a position on, each amount once. -/
def valuesFrom (words : List Str) : ℕ → ℕ → List ValueInPlace → List ValueInPlace
  | 0, _, out => out
  | fuel + 1, i, out =>
    if words.length ≤ i then out
    else
      match valueLength letters words i with
      | some n =>
        let v := valueIn words i n
        valuesFrom words fuel (i + n)
          (if out.any fun u => u.canonical == v.canonical then out else out ++ [v])
      | none => valuesFrom words fuel (i + 1) out

/-- The words of a text, without its embeds. -/
def claimWords (text : Str) : List Str := wordsOf letters (stripEmbedMarkers text)

/-- Every value of a text. -/
def valuesInPlace (text : Str) : List ValueInPlace :=
  valuesFrom letters (claimWords letters text) (claimWords letters text).length 0 []

/-- The values of a text that another would lose, as they are written. -/
def orphanedValues (target successor : Str) : List Str :=
  let had := valuesInPlace letters target
  let stated := valuesInPlace letters successor
  let gained := stated.filter fun v => !had.any fun u => u.canonical == v.canonical
  ((had.filter fun v => !stated.any fun u => u.canonical == v.canonical).filter fun v =>
    !gained.any fun g => v.near.any g.near.contains).map ValueInPlace.written

/-! ## A copy among other words -/

/-- Where the scan stands after the value at a position, or after the word there. -/
def next (words : List Str) (i : ℕ) : ℕ := i + (valueLength letters words i).getD 1

/-- The scan comes to a position. -/
def Reached (words : List Str) (i : ℕ) : Prop := ∃ m, (next letters words)^[m] 0 = i

/-- A value is read at a position. -/
structure ReadAt (words : List Str) (i n : ℕ) : Prop where
  reached : Reached letters words i
  within : i < words.length
  length : valueLength letters words i = some n

/-- A text word for word, after some words and before others. -/
def copyIn (pre t post : Str) : Str := pre ++ ". ".toList ++ t ++ " ".toList ++ post

/-- Whether a word is one digit or two. -/
def isShort (word : Str) : Bool := word.length ≤ 2 && word.all isAsciiDigit

/-- The words beside a copy leave a value of it what it is. -/
structure StandsClear (before copy after : List Str) (i : ℕ) : Prop where
  reached : Reached letters (before ++ copy ++ after) (before.length + i)
  alone : anIdentifierAt (before ++ copy ++ after) (before.length + i) = anIdentifierAt copy i
  unnamed : anIdentifierAt copy i = none → i = 0 → ∀ w, before.getLast? = some w →
    w ∉ namingWords
  untimed : anIdentifierAt copy i = none → isShort (wordAt copy i) = true → i = 0 →
    ∀ w, before.getLast? = some w → w ∉ hourMarkers
  undated : anIdentifierAt copy i = none → isShort (wordAt copy i) = true →
    ∀ k w, (before ++ copy ++ after)[k]? = some w →
      (k < before.length ∨ before.length + copy.length ≤ k) →
        before.length + i ≤ k + companionDistance → k ≤ before.length + i + companionDistance →
          w ∉ months

/-- A value of the text is read in its place in the copy. -/
def KeptInPlace (pre t post : Str) (v : ValueInPlace) : Prop :=
  claimWords letters (copyIn pre t post) =
      claimWords letters pre ++ claimWords letters t ++ claimWords letters post ∧
    ∃ i n, ReadAt letters (claimWords letters t) i n ∧
      canonicalFigure (written (claimWords letters t) i n) = v.canonical ∧
        StandsClear letters (claimWords letters pre) (claimWords letters t)
          (claimWords letters post) i

/-- The amount is read in the replacement, and not where the copy has a value. -/
def StatedBeside (pre t post : Str) (v : ValueInPlace) : Prop :=
  ∃ j n, ReadAt letters (claimWords letters (copyIn pre t post)) j n ∧
    canonicalFigure (written (claimWords letters (copyIn pre t post)) j n) = v.canonical ∧
      ¬ (claimWords letters (copyIn pre t post) =
          claimWords letters pre ++ claimWords letters t ++ claimWords letters post ∧
        ∃ i, j = (claimWords letters pre).length + i ∧ ReadAt letters (claimWords letters t) i n)

/-- A value that is new to the replacement stands beside a word that the value stood beside. -/
def ArguedFor (pre t post : Str) (v : ValueInPlace) : Prop :=
  ∃ g ∈ valuesInPlace letters (copyIn pre t post),
    (∀ u ∈ valuesInPlace letters t, u.canonical ≠ g.canonical) ∧ ∃ w ∈ v.near, w ∈ g.near

section Laws

variable {letters}

/-! ### The scan -/

lemma digitRun_spec {left carried n : ℕ} {l : List Str} (h : digitRun left carried l = some n) :
    1 ≤ n ∧ n ≤ l.length := by
  induction left generalizing carried l n with
  | zero => cases h
  | succ left ih =>
    cases l with
    | nil => cases h
    | cons w l =>
      simp only [digitRun] at h
      split_ifs at h
      · obtain rfl := Option.some.inj h
        simp
      · obtain ⟨m, hm, rfl⟩ := Option.map_eq_some_iff.mp h
        obtain ⟨-, hle⟩ := ih hm
        simp only [List.length_cons]
        omega

lemma anIdentifierAt_spec {words : List Str} {i n : ℕ} (h : anIdentifierAt words i = some n)
    (hi : i < words.length) : 1 ≤ n ∧ i + n ≤ words.length := by
  simp only [anIdentifierAt] at h
  split_ifs at h
  iterate 4
    · obtain rfl := Option.some.inj h
      omega
  · obtain ⟨hpos, hle⟩ := digitRun_spec h
    rw [List.length_drop] at hle
    omega

lemma valueLength_eq {words : List Str} {i : ℕ} (hi : i < words.length) :
    valueLength letters words i = (anIdentifierAt words i).or
      (if readsAsAValue letters words i then some 1 else none) := by
  unfold valueLength
  cases h : anIdentifierAt words i with
  | none => rfl
  | some n =>
    obtain ⟨-, hle⟩ := anIdentifierAt_spec h hi
    have hlen : min (i + n) words.length - i = n := by omega
    simp [hlen]

lemma valueLength_spec {words : List Str} {i n : ℕ} (h : valueLength letters words i = some n)
    (hi : i < words.length) : 1 ≤ n ∧ i + n ≤ words.length := by
  rw [valueLength_eq hi] at h
  cases hid : anIdentifierAt words i with
  | some m =>
    rw [hid] at h
    obtain rfl := Option.some.inj h
    exact anIdentifierAt_spec hid hi
  | none =>
    rw [hid, Option.none_or] at h
    split_ifs at h
    obtain rfl := Option.some.inj h
    omega

lemma lt_next (words : List Str) (i : ℕ) (hi : i < words.length) :
    i < next letters words i := by
  unfold next
  cases h : valueLength letters words i with
  | none => exact Nat.lt_succ_self i
  | some n =>
    have hpos := (valueLength_spec h hi).1
    simp only [Option.getD_some]
    omega

lemma next_le {words : List Str} {i : ℕ} (hi : i < words.length) :
    next letters words i ≤ words.length := by
  unfold next
  cases h : valueLength letters words i with
  | none => exact hi
  | some n => exact (valueLength_spec h hi).2

lemma le_iterate_next (words : List Str) (m i : ℕ) : i ≤ (next letters words)^[m] i := by
  induction m generalizing i with
  | zero => exact le_rfl
  | succ m ih => exact (Nat.le_add_right i _).trans (ih _)

/-- The values that are read from a position on, beside those that were there. -/
lemma valuesFrom_iff {words : List Str} {c : Str} {fuel i : ℕ} {out : List ValueInPlace} :
    (∃ v ∈ valuesFrom letters words fuel i out, v.canonical = c) ↔
      (∃ v ∈ out, v.canonical = c) ∨ ∃ m < fuel, ∃ n, (next letters words)^[m] i < words.length ∧
        valueLength letters words ((next letters words)^[m] i) = some n ∧
          canonicalFigure (written words ((next letters words)^[m] i) n) = c := by
  induction fuel generalizing i out with
  | zero => simp [valuesFrom]
  | succ fuel ih =>
    rw [valuesFrom, Nat.exists_lt_succ_left]
    simp only [Function.iterate_succ_apply, Function.iterate_zero_apply]
    split_ifs with hend
    · have hpast : ∀ m, ¬ (next letters words)^[m] (next letters words i) < words.length := by
        intro m
        have hle := @le_iterate_next letters words (m + 1) i
        rw [Function.iterate_succ_apply] at hle
        omega
      simp [hpast, hend]
    · rw [not_le] at hend
      cases hlength : valueLength letters words i with
      | none =>
        have hnext : next letters words i = i + 1 := by simp [next, hlength]
        simp only [ih, hnext]
        simp
      | some n =>
        have hnext : next letters words i = i + n := by simp [next, hlength]
        have hout : (∃ v ∈ (if out.any (fun u => u.canonical == (valueIn words i n).canonical)
            then out else out ++ [valueIn words i n]), v.canonical = c) ↔
              (∃ v ∈ out, v.canonical = c) ∨ canonicalFigure (written words i n) = c := by
          split_ifs with hthere
          · obtain ⟨u, hu, hsame⟩ := List.any_eq_true.mp hthere
            constructor
            · exact Or.inl
            · rintro (h | rfl)
              · exact h
              · exact ⟨u, hu, beq_iff_eq.mp hsame⟩
          · simp [or_and_right, exists_or, valueIn]
        simp only [ih, hnext, hout, or_assoc]
        simp [hend]

/-- The amounts of a text are those that the scan reads. -/
lemma stated_iff {text c : Str} : (∃ v ∈ valuesInPlace letters text, v.canonical = c) ↔
    ∃ j n, ReadAt letters (claimWords letters text) j n ∧
      canonicalFigure (written (claimWords letters text) j n) = c := by
  rw [valuesInPlace, valuesFrom_iff]
  simp only [List.not_mem_nil, false_and, exists_false, false_or]
  constructor
  · rintro ⟨m, -, n, hwithin, hlength, hsame⟩
    exact ⟨_, n, ⟨⟨m, rfl⟩, hwithin, hlength⟩, hsame⟩
  · rintro ⟨j, n, ⟨⟨m, rfl⟩, hwithin, hlength⟩, hsame⟩
    refine ⟨m, ?_, n, hwithin, hlength, hsame⟩
    -- every step of the scan passes a word
    have hsteps : ∀ m, (next letters (claimWords letters text))^[m] 0 <
        (claimWords letters text).length →
          m ≤ (next letters (claimWords letters text))^[m] 0 := by
      intro m
      induction m with
      | zero => exact fun _ => le_rfl
      | succ m ih =>
        rw [Function.iterate_succ_apply']
        intro hlt
        have hle : (next letters (claimWords letters text))^[m] 0 ≤
            next letters (claimWords letters text)
              ((next letters (claimWords letters text))^[m] 0) := Nat.le_add_right _ _
        have hbefore := lt_of_le_of_lt hle hlt
        have hstep := @lt_next letters _ _ hbefore
        have hm := ih hbefore
        omega
    exact lt_of_le_of_lt (hsteps m hwithin) hwithin

/-- A value is lost when its amount is not stated, and nothing new stands beside its words. -/
lemma orphanedValues_eq_nil_iff {target successor : Str} :
    orphanedValues letters target successor = [] ↔ ∀ v ∈ valuesInPlace letters target,
      (∃ u ∈ valuesInPlace letters successor, u.canonical = v.canonical) ∨
        ∃ g ∈ valuesInPlace letters successor,
          (∀ u ∈ valuesInPlace letters target, u.canonical ≠ g.canonical) ∧
            ∃ w ∈ v.near, w ∈ g.near := by
  have hstated : ∀ (vs : List ValueInPlace) (v : ValueInPlace),
      (!vs.any fun u => u.canonical == v.canonical) = true ↔
        ∀ u ∈ vs, u.canonical ≠ v.canonical := by
    simp
  simp only [orphanedValues, List.map_eq_nil_iff, List.filter_eq_nil_iff, List.mem_filter, hstated]
  simp only [Bool.not_eq_true', Bool.not_eq_false, List.any_eq_true, List.mem_filter, hstated,
    List.contains_iff_mem, and_imp]
  refine forall₂_congr fun v _ => ?_
  constructor
  · intro h
    by_cases hthere : ∃ u ∈ valuesInPlace letters successor, u.canonical = v.canonical
    · exact Or.inl hthere
    · push Not at hthere
      obtain ⟨g, ⟨hg, hnew⟩, w, hw, hwg⟩ := h hthere
      exact Or.inr ⟨g, hg, hnew, w, hw, hwg⟩
  · rintro (⟨u, hu, hsame⟩ | ⟨g, hg, hnew, w, hw, hwg⟩) hlost
    · exact absurd hsame (hlost u hu)
    · exact ⟨g, ⟨hg, hnew⟩, w, hw, hwg⟩

/-! ### The words beside the copy -/

lemma digitRun_append {left carried n : ℕ} {l : List Str} (more : List Str)
    (h : digitRun left carried l = some n) : digitRun left carried (l ++ more) = some n := by
  induction left generalizing carried l n with
  | zero => cases h
  | succ left ih =>
    cases l with
    | nil => cases h
    | cons w l =>
      simp only [digitRun, List.cons_append] at h ⊢
      split_ifs at h ⊢
      · exact h
      · obtain ⟨m, hm, rfl⟩ := Option.map_eq_some_iff.mp h
        rw [ih hm]
        rfl

variable {before copy after : List Str} {i : ℕ}

lemma wordAt_copy (hi : i < copy.length) :
    wordAt (before ++ copy ++ after) (before.length + i) = wordAt copy i := by
  rw [wordAt, wordAt, List.append_assoc, List.getElem?_append_right (Nat.le_add_right _ _),
    Nat.add_sub_cancel_left, List.getElem?_append_left hi]

lemma drop_copy (hi : i < copy.length) :
    (before ++ copy ++ after).drop (before.length + i) = copy.drop i ++ after := by
  rw [List.append_assoc, ← List.drop_drop, List.drop_left, List.drop_append_of_le_length hi.le]

lemma written_copy {n : ℕ} (hi : i < copy.length) (hn : i + n ≤ copy.length) :
    written (before ++ copy ++ after) (before.length + i) n = written copy i n := by
  rw [written, written, drop_copy hi, List.take_append_of_le_length (by simp; omega)]

/-- A word that is an identifier by itself, or begins one, is one among other words. -/
lemma anIdentifierAt_copy {n : ℕ} (hi : i < copy.length) (h : anIdentifierAt copy i = some n) :
    anIdentifierAt (before ++ copy ++ after) (before.length + i) = some n := by
  simp only [anIdentifierAt, wordAt_copy hi, drop_copy hi] at h ⊢
  split_ifs at h ⊢
  iterate 4
    · exact h
  · exact digitRun_append after h

/-- What one word is as an identifier does not depend on the others. -/
lemma anIdentifierAt_copy_one (hi : i < copy.length)
    (h : anIdentifierAt (before ++ copy ++ after) (before.length + i) = some 1) :
    anIdentifierAt copy i = some 1 := by
  simp only [anIdentifierAt, wordAt_copy hi, drop_copy hi] at h ⊢
  split_ifs at h ⊢
  iterate 4
    · exact h
  · obtain ⟨w, l, hsplit⟩ := List.exists_cons_of_ne_nil
      (List.drop_eq_nil_iff.not.mpr (not_le.mpr hi))
    rw [hsplit] at h ⊢
    simp only [identifierRunWords, digitRun, List.cons_append] at h ⊢
    split_ifs at h ⊢
    · rfl
    · obtain ⟨m, hm, hone⟩ := Option.map_eq_some_iff.mp h
      have hpos := (digitRun_spec hm).1
      omega

lemma mem_beside_iff {words : List Str} {w : Str} : w ∈ beside words i ↔
    ∃ k, k ≠ i ∧ words[k]? = some w ∧ i ≤ k + companionDistance ∧ k ≤ i + companionDistance := by
  have hget : ∀ j, ((words.take (i + companionDistance + 1)).drop (i - companionDistance))[j]? =
      if i - companionDistance + j < i + companionDistance + 1 then
        words[i - companionDistance + j]? else none := by
    intro j
    rw [List.getElem?_drop, List.getElem?_take]
  simp only [beside, List.mem_map, List.mem_filter, Prod.exists, List.mem_zipIdx_iff_getElem?, hget]
  constructor
  · rintro ⟨w', j, ⟨hw, hne⟩, rfl⟩
    split_ifs at hw with hlt
    refine ⟨_, of_decide_eq_true hne, hw, ?_, ?_⟩
    · unfold companionDistance
      omega
    · omega
  · rintro ⟨k, hne, hw, hfrom, hto⟩
    have hk : i - companionDistance + (k - (i - companionDistance)) = k := by omega
    refine ⟨w, k - (i - companionDistance), ⟨?_, ?_⟩, rfl⟩
    · rw [hk, if_pos (by omega), hw]
    · rw [hk]
      exact decide_eq_true hne

/-- Whether a word is a date by itself. -/
def isDate (word : Str) : Bool :=
  (word.length = 4 && word.all isAsciiDigit) ||
    ((digitGroups word [':', '.']).any fun g => g.length == 2 &&
      (g.head?.any fun hours => hours.length == 1 || hours.length == 2) &&
        g[1]?.any fun minutes => minutes.length == 2) ||
    (digitGroups word ['/', '-']).any fun g => (g.length == 2 || g.length == 3) &&
      g.all fun p => 1 ≤ p.length && p.length ≤ 4

lemma readsAsADate_iff {words : List Str} : readsAsADate words i = true ↔
    isDate (wordAt words i) = true ∨ isShort (wordAt words i) = true ∧
      ((∃ w ∈ beside words i, w ∈ months) ∨ (0 < i ∧ wordAt words (i - 1) ∈ hourMarkers)) := by
  have hcases : ∀ year time day short beside : Bool,
      (if year then true else if time then true else if day then true
        else if !short then false else beside) = (year || time || day || short && beside) := by
    decide
  have hdate : readsAsADate words i = (isDate (wordAt words i) || isShort (wordAt words i) &&
      ((beside words i).any months.contains ||
        (0 < i && hourMarkers.contains (wordAt words (i - 1))))) := hcases _ _ _ _ _
  rw [hdate]
  simp only [Bool.or_eq_true, Bool.and_eq_true, List.any_eq_true, List.contains_iff_mem,
    decide_eq_true_eq]

lemma readsAsAValue_iff {words : List Str} : readsAsAValue letters words i = true ↔
    ((wordAt words i).any isAsciiDigit = true ∧
        ¬ namesAThingRatherThanAValue letters (wordAt words i) = true ∧
          ¬ isDate (wordAt words i) = true) ∧
      ¬ (0 < i ∧ wordAt words (i - 1) ∈ namingWords) ∧
      (isShort (wordAt words i) = true → (∀ w ∈ beside words i, w ∉ months) ∧
        ¬ (0 < i ∧ wordAt words (i - 1) ∈ hourMarkers)) := by
  have harticle : anArticleNamesIt words i = true ↔
      0 < i ∧ wordAt words (i - 1) ∈ namingWords := by
    simp [anArticleNamesIt]
  have hmonths : (∀ w ∈ beside words i, w ∉ months) ↔ ¬ ∃ w ∈ beside words i, w ∈ months := by
    push Not
    rfl
  rw [readsAsAValue]
  simp only [Bool.and_eq_true, Bool.not_eq_true', ← Bool.not_eq_true, readsAsADate_iff, harticle,
    hmonths]
  have hlogic : ∀ digit named date short month hour article : Prop,
      ((digit ∧ ¬ (date ∨ short ∧ (month ∨ hour))) ∧ ¬ named) ∧ ¬ article ↔
        (digit ∧ ¬ named ∧ ¬ date) ∧ ¬ article ∧ (short → ¬ month ∧ ¬ hour) := by
    tauto
  exact hlogic _ _ _ _ _ _ _

/-- The word before a word of the copy. -/
lemma wordAt_before (hi : i < copy.length) {p : Str → Prop} :
    (0 < before.length + i ∧ p (wordAt (before ++ copy ++ after) (before.length + i - 1))) ↔
      (0 < i ∧ p (wordAt copy (i - 1))) ∨ (i = 0 ∧ ∃ w, before.getLast? = some w ∧ p w) := by
  cases i with
  | zero =>
    rcases List.eq_nil_or_concat before with rfl | ⟨front, w, rfl⟩
    · simp
    · have hword : wordAt (front ++ w :: (copy ++ after)) front.length = w := by
        simp [wordAt]
      simp [hword]
  | succ k =>
    have hword : wordAt (before ++ copy ++ after) (before.length + (k + 1) - 1) = wordAt copy k :=
      wordAt_copy (Nat.lt_of_succ_lt hi)
    simp only [hword, Nat.add_sub_cancel]
    simp

/-- The months beside a word of the copy are those of the text and those of the words around it. -/
lemma months_beside_copy (hi : i < copy.length) :
    (∀ w ∈ beside (before ++ copy ++ after) (before.length + i), w ∉ months) ↔
      (∀ w ∈ beside copy i, w ∉ months) ∧
        ∀ k w, (before ++ copy ++ after)[k]? = some w →
          (k < before.length ∨ before.length + copy.length ≤ k) →
            before.length + i ≤ k + companionDistance → k ≤ before.length + i + companionDistance →
              w ∉ months := by
  have hinside : ∀ k, k < copy.length →
      (before ++ copy ++ after)[before.length + k]? = copy[k]? := by
    intro k hk
    rw [List.append_assoc, List.getElem?_append_right (Nat.le_add_right _ _),
      Nat.add_sub_cancel_left, List.getElem?_append_left hk]
  simp only [mem_beside_iff]
  constructor
  · intro h
    refine ⟨?_, fun k w hw hout hfrom hto => h w ⟨k, by omega, hw, hfrom, hto⟩⟩
    rintro w ⟨k, hne, hw, hfrom, hto⟩
    have hk := (List.getElem?_eq_some_iff.mp hw).1
    exact h w ⟨before.length + k, by omega, by rwa [hinside k hk], by omega, by omega⟩
  · rintro ⟨hcopy, hout⟩ w ⟨k, hne, hw, hfrom, hto⟩
    by_cases hk : k < before.length ∨ before.length + copy.length ≤ k
    · exact hout k w hw hk hfrom hto
    · obtain ⟨m, rfl⟩ := Nat.exists_eq_add_of_le (by omega : before.length ≤ k)
      rw [hinside m (by omega)] at hw
      exact hcopy w ⟨m, by omega, hw, by omega, by omega⟩

/-- A value of the text is one in its place exactly when it stands clear. -/
lemma standsClear_iff {n : ℕ} (h : ReadAt letters copy i n) :
    StandsClear letters before copy after i ↔
      ReadAt letters (before ++ copy ++ after) (before.length + i) n := by
  have hi := h.within
  have hwithin : before.length + i < (before ++ copy ++ after).length := by
    simp only [List.length_append]
    omega
  have hlength := h.length
  rw [valueLength_eq hi] at hlength
  constructor
  · intro hclear
    refine ⟨hclear.reached, hwithin, ?_⟩
    rw [valueLength_eq hwithin, hclear.alone]
    cases hid : anIdentifierAt copy i with
    | some m =>
      rw [hid] at hlength
      exact hlength
    | none =>
      rw [hid, Option.none_or] at hlength
      rw [Option.none_or]
      split_ifs at hlength with hvalue
      rw [if_pos ?_]
      · exact hlength
      · rw [readsAsAValue_iff] at hvalue ⊢
        obtain ⟨hword, hnamed, hdated⟩ := hvalue
        rw [wordAt_copy hi, wordAt_before hi, wordAt_before hi, months_beside_copy hi]
        refine ⟨hword, ?_, fun hshort => ⟨⟨(hdated hshort).1, hclear.undated hid hshort⟩, ?_⟩⟩
        · rintro (hinner | ⟨hzero, w, hw, hnames⟩)
          · exact hnamed hinner
          · exact hclear.unnamed hid hzero w hw hnames
        · rintro (hinner | ⟨hzero, w, hw, hhour⟩)
          · exact (hdated hshort).2 hinner
          · exact hclear.untimed hid hshort hzero w hw hhour
  · intro hread
    have hthere := hread.length
    rw [valueLength_eq hwithin] at hthere
    have halone : anIdentifierAt (before ++ copy ++ after) (before.length + i) =
        anIdentifierAt copy i := by
      cases hid : anIdentifierAt copy i with
      | some m => exact anIdentifierAt_copy hi hid
      | none =>
        rw [hid, Option.none_or] at hlength
        split_ifs at hlength
        obtain rfl := Option.some.inj hlength
        cases hjoined : anIdentifierAt (before ++ copy ++ after) (before.length + i) with
        | none => rfl
        | some m =>
          rw [hjoined] at hthere
          obtain rfl := Option.some.inj hthere
          rw [anIdentifierAt_copy_one hi hjoined] at hid
          cases hid
    have hvalue : anIdentifierAt copy i = none →
        readsAsAValue letters (before ++ copy ++ after) (before.length + i) = true := by
      intro hid
      rw [halone, hid, Option.none_or] at hthere
      split_ifs at hthere with hvalue
      exact hvalue
    simp only [readsAsAValue_iff, wordAt_copy hi, wordAt_before hi, months_beside_copy hi] at hvalue
    refine ⟨hread.reached, halone, ?_, ?_, ?_⟩
    · intro hid hzero w hw hnames
      exact (hvalue hid).2.1 (Or.inr ⟨hzero, w, hw, hnames⟩)
    · intro hid hshort hzero w hw hhour
      exact ((hvalue hid).2.2 hshort).2 (Or.inr ⟨hzero, w, hw, hhour⟩)
    · intro hid hshort
      exact ((hvalue hid).2.2 hshort).1.2

end Laws

/-! ## Exactly when a copy loses nothing -/

/-- A replacement that has a text word for word loses nothing of it exactly when each of its values
is read in its place, or stated beside the copy, or argued for. -/
theorem copy_loses_nothing_iff (letters : Letters) (t pre post : Str) :
    orphanedValues letters t (copyIn pre t post) = [] ↔ ∀ v ∈ valuesInPlace letters t,
      KeptInPlace letters pre t post v ∨ StatedBeside letters pre t post v ∨
        ArguedFor letters pre t post v := by
  rw [orphanedValues_eq_nil_iff]
  refine forall₂_congr fun v _ => ?_
  rw [stated_iff, ← or_assoc]
  refine or_congr_left ?_
  constructor
  · rintro ⟨j, n, hread, hsame⟩
    by_cases hplace : claimWords letters (copyIn pre t post) =
        claimWords letters pre ++ claimWords letters t ++ claimWords letters post ∧
      ∃ i, j = (claimWords letters pre).length + i ∧ ReadAt letters (claimWords letters t) i n
    · obtain ⟨hwords, i, rfl, hi⟩ := hplace
      have hn := (valueLength_spec hi.length hi.within).2
      rw [hwords] at hread hsame
      rw [written_copy hi.within hn] at hsame
      exact Or.inl ⟨hwords, i, n, hi, hsame, (standsClear_iff hi).mpr hread⟩
    · exact Or.inr ⟨j, n, hread, hsame, hplace⟩
  · rintro (⟨hwords, i, n, hi, hsame, hclear⟩ | ⟨j, n, hread, hsame, -⟩)
    · have hn := (valueLength_spec hi.length hi.within).2
      refine ⟨(claimWords letters pre).length + i, n, ?_, ?_⟩
      · rw [hwords]
        exact (standsClear_iff hi).mp hclear
      · rw [hwords, written_copy hi.within hn]
        exact hsame
    · exact ⟨j, n, hread, hsame⟩

/-- What was bought, five of it, after a sentence that ends in a month. -/
theorem copy_in_march_loses_its_figure :
    orphanedValues asciiLetters "5 apples".toList
      (copyIn "We met in March".toList "5 apples".toList "He ate them.".toList) =
        ["5".toList] := by
  decide +kernel

end Compiler

end Mwe
