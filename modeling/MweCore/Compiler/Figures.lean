import MweCore.Compiler.Restating
import MweCore.Lib.Numeral

/-!
# The one way of writing a figure

`canonicalFigure` writes an amount without marks between its thousands, with a point before its
decimals and no zero after them, in whichever of two notations the word has it.  Which mark is the
decimal one is not told by the word: the last of two kinds is, and one that stands alone is unless
three digits follow it.

An amount with at most two decimals is never misread (`canonicalFigure_text`), so that the canonical
strings of two such amounts are one exactly when the amounts are (`canonicalFigure_eq_iff`).
-/

namespace Mwe

open Str

namespace Compiler

/-! ## The figure -/

/-- The position of the last occurrence of a character. -/
def rfind (c : Char) (word : Str) : Option ℕ :=
  (word.reverse.idxOf? c).map fun i => word.length - 1 - i

/-- Whether three characters are left after a position. -/
def endsAGroup (word : Str) (at' : ℕ) : Bool := word.length - at' - 1 == 3

/-- Where the decimal mark of a figure is, when it has one. -/
def decimalAt (word : Str) : Option ℕ :=
  match rfind '.' word, rfind ',' word with
  | some d, some c => some (max d c)
  | some d, none => if word.count '.' == 1 && !endsAGroup word d then some d else none
  | none, some c => if word.count ',' == 1 && !endsAGroup word c then some c else none
  | none, none => none

/-- Whether a word is digits and marks, with a digit at both ends. -/
def isPlainFigure (word : Str) : Bool :=
  word.head?.any isAsciiDigit && word.getLast?.any isAsciiDigit &&
    word.all fun c => isAsciiDigit c || c == '.' || c == ','

/-- The one way of writing a figure; a word that is none comes back untouched. -/
def canonicalFigure (word : Str) : Str :=
  if !isPlainFigure word then word
  else
    let isFraction := fun x : Char × ℕ => (decimalAt word).any fun d => d < x.2
    let digits := word.zipIdx.filter fun x => isAsciiDigit x.1
    let whole := (digits.filter fun x => !isFraction x).map Prod.fst
    let fraction := ((digits.filter isFraction).map Prod.fst).rdropWhile (· == '0')
    if fraction.isEmpty then whole else whole ++ '.' :: fraction

/-! ## Writings of an amount -/

/-- The two notations. -/
inductive FigureStyle where
  | italian | english

/-- What stands between the thousands. -/
def FigureStyle.groupMark : FigureStyle → Char
  | .italian => '.'
  | .english => ','

/-- What stands before the decimals. -/
def FigureStyle.decimalMark : FigureStyle → Char
  | .italian => ','
  | .english => '.'

/-- A way of writing an amount: in thousands or not, with no decimal, with one or with two. -/
structure Writing where
  style : FigureStyle
  grouped : Bool
  whole : ℕ
  fraction : List (Fin 10)
  short : fraction.length ≤ 2

/-- A digit as it is written. -/
def digit (d : Fin 10) : Char := Nat.digitChar d

namespace Writing

/-- The digits before the decimal mark. -/
def front (w : Writing) : Str :=
  if w.grouped then List.inThrees w.style.groupMark (Nat.toDigits 10 w.whole)
  else Nat.toDigits 10 w.whole

/-- What is written. -/
def text (w : Writing) : Str :=
  w.front ++ if w.fraction.isEmpty then [] else w.style.decimalMark :: w.fraction.map digit

/-- The hundredths of a fraction. -/
def hundredths : List (Fin 10) → ℕ
  | [] => 0
  | [a] => 10 * a
  | a :: b :: _ => 10 * a + b

/-- The amount, in hundredths. -/
def cents (w : Writing) : ℕ := 100 * w.whole + hundredths w.fraction

/-- The amount in the one way of writing it. -/
def plain (w : Writing) : Str :=
  let fraction := w.fraction.rdropWhile (· == 0)
  Nat.toDigits 10 w.whole ++ if fraction.isEmpty then [] else '.' :: fraction.map digit

end Writing

/-! ## The last of the marks -/

section Laws

lemma rfind_eq_none_iff {c : Char} {word : Str} : rfind c word = none ↔ c ∉ word := by
  simp [rfind]

lemma rfind_append_cons {c : Char} {front back : Str} (h : c ∉ back) :
    rfind c (front ++ c :: back) = some front.length := by
  have hback : List.findIdx? (· == c) back.reverse = none := by
    rw [List.findIdx?_eq_none_iff]
    intro x hx
    rw [beq_eq_false_iff_ne]
    rintro rfl
    exact h (List.mem_reverse.mp hx)
  have hfirst : (front ++ c :: back).reverse.idxOf? c = some back.length := by
    simp [List.idxOf?, List.findIdx?_append, List.findIdx?_cons, hback]
  rw [rfind, hfirst, Option.map_some]
  simp

lemma rfind_append {c : Char} {front back : Str} (h : c ∉ back) :
    rfind c (front ++ back) = rfind c front := by
  have hback : List.findIdx? (· == c) back.reverse = none := by
    rw [List.findIdx?_eq_none_iff]
    intro x hx
    rw [beq_eq_false_iff_ne]
    rintro rfl
    exact h (List.mem_reverse.mp hx)
  simp only [rfind, List.idxOf?, List.reverse_append, List.findIdx?_append, hback, Option.none_or,
    Option.map_map, List.length_append, List.length_reverse]
  refine Option.map_congr fun i _ => ?_
  dsimp only [Function.comp]
  omega

lemma rfind_lt {c : Char} {word : Str} {d : ℕ} (h : rfind c word = some d) : d < word.length := by
  obtain ⟨i, hi, rfl⟩ := Option.map_eq_some_iff.mp h
  obtain ⟨hlt, -⟩ := List.idxOf?_eq_some_iff.mp hi
  rw [List.length_reverse] at hlt
  omega

/-! ## What is read -/

lemma canonicalFigure_of_none {word : Str} (hplain : isPlainFigure word = true)
    (h : decimalAt word = none) : canonicalFigure word = word.filter isAsciiDigit := by
  have hdigits : ((word.zipIdx.filter fun x => isAsciiDigit x.1).map Prod.fst) =
      word.filter isAsciiDigit := by
    have hfst : (fun x : Char × ℕ => isAsciiDigit x.1) = isAsciiDigit ∘ Prod.fst := rfl
    rw [hfst, ← List.filter_map, List.zipIdx_map_fst]
  simp [canonicalFigure, hplain, h, hdigits]

/-- The digits on one side of a position. -/
lemma map_fst_filter_zipIdx (l : Str) (n : ℕ) {p : Char × ℕ → Bool} (b : Bool)
    (h : ∀ x ∈ l.zipIdx n, p x = b) :
    ((l.zipIdx n).filter fun x => p x && isAsciiDigit x.1).map Prod.fst =
      if b then l.filter isAsciiDigit else [] := by
  have hsame : (l.zipIdx n).filter (fun x => p x && isAsciiDigit x.1) =
      (l.zipIdx n).filter fun x => b && isAsciiDigit x.1 :=
    List.filter_congr fun x hx => by rw [h x hx]
  rw [hsame]
  cases b with
  | false => simp
  | true =>
    have hfst : (fun x : Char × ℕ => true && isAsciiDigit x.1) = isAsciiDigit ∘ Prod.fst := rfl
    rw [hfst, ← List.filter_map, List.zipIdx_map_fst, if_pos rfl]

lemma canonicalFigure_of_some {front back : Str} {mark : Char} (hmark : isAsciiDigit mark = false)
    (hplain : isPlainFigure (front ++ mark :: back) = true)
    (h : decimalAt (front ++ mark :: back) = some front.length) :
    canonicalFigure (front ++ mark :: back) = front.filter isAsciiDigit ++
      if ((back.filter isAsciiDigit).rdropWhile (· == '0')).isEmpty then []
      else '.' :: (back.filter isAsciiDigit).rdropWhile (· == '0') := by
  have hsplit : (front ++ mark :: back).zipIdx =
      front.zipIdx ++ (mark, front.length) :: back.zipIdx (front.length + 1) := by
    rw [List.zipIdx_append, List.zipIdx_cons, Nat.zero_add]
  have hbefore : ∀ x ∈ front.zipIdx, decide (front.length < x.2) = false := by
    intro x hx
    have hlt := (List.mem_zipIdx hx).2.1
    rw [decide_eq_false_iff_not]
    omega
  have hafter : ∀ x ∈ back.zipIdx (front.length + 1), decide (front.length < x.2) = true := by
    intro x hx
    have hle := (List.mem_zipIdx hx).1
    rw [decide_eq_true_eq]
    omega
  have hwhole : (((front ++ mark :: back).zipIdx.filter fun x =>
      !decide (front.length < x.2) && isAsciiDigit x.1).map Prod.fst) =
        front.filter isAsciiDigit := by
    rw [hsplit, List.filter_append, List.map_append, List.filter_cons_of_neg (by simp [hmark]),
      map_fst_filter_zipIdx front 0 true (fun x hx => by rw [hbefore x hx]; rfl),
      map_fst_filter_zipIdx back _ false (fun x hx => by rw [hafter x hx]; rfl)]
    simp
  have hfraction : (((front ++ mark :: back).zipIdx.filter fun x =>
      decide (front.length < x.2) && isAsciiDigit x.1).map Prod.fst) =
        back.filter isAsciiDigit := by
    rw [hsplit, List.filter_append, List.map_append, List.filter_cons_of_neg (by simp [hmark]),
      map_fst_filter_zipIdx front 0 false hbefore, map_fst_filter_zipIdx back _ true hafter]
    simp
  simp only [canonicalFigure, hplain, h, Option.any_some, List.filter_filter, hwhole, hfraction]
  split_ifs <;> simp_all

/-! ## What is written -/

lemma isAsciiDigit_of_mem_toDigits {n : ℕ} {c : Char} (h : c ∈ Nat.toDigits 10 n) :
    isAsciiDigit c = true := by
  have hdigit : c.isDigit = true := Nat.isDigit_of_mem_toDigits (by decide) (by decide) h
  simpa [isAsciiDigit, Char.isDigit, Char.le_def] using hdigit

lemma isAsciiDigit_digit : ∀ d : Fin 10, isAsciiDigit (digit d) = true := by decide

lemma digit_injective : Function.Injective digit := by decide

lemma digit_beq_zero : ∀ d : Fin 10, (digit d == '0') = (d == 0) := by decide

lemma isAsciiDigit_groupMark (style : FigureStyle) : isAsciiDigit style.groupMark = false := by
  cases style <;> rfl

lemma isAsciiDigit_decimalMark (style : FigureStyle) :
    isAsciiDigit style.decimalMark = false := by
  cases style <;> rfl

namespace Writing

variable (w : Writing)

lemma mem_front {c : Char} (h : c ∈ w.front) : c = w.style.groupMark ∨ isAsciiDigit c = true := by
  unfold front at h
  split_ifs at h
  · exact (List.mem_inThrees h).imp_right isAsciiDigit_of_mem_toDigits
  · exact Or.inr (isAsciiDigit_of_mem_toDigits h)

lemma filter_front : w.front.filter isAsciiDigit = Nat.toDigits 10 w.whole := by
  unfold front
  split_ifs
  · exact List.filter_inThrees (isAsciiDigit_groupMark _) fun c => isAsciiDigit_of_mem_toDigits
  · exact List.filter_eq_self.mpr fun c => isAsciiDigit_of_mem_toDigits

lemma head?_front : w.front.head? = (Nat.toDigits 10 w.whole).head? := by
  unfold front
  split_ifs
  · exact List.head?_inThrees
  · rfl

lemma getLast?_front : w.front.getLast? = (Nat.toDigits 10 w.whole).getLast? := by
  unfold front
  split_ifs
  · exact List.getLast?_inThrees
  · rfl

lemma decimalMark_notMem_front : w.style.decimalMark ∉ w.front := by
  intro h
  rcases w.mem_front h with hgroup | hdigit
  · revert hgroup
    cases w.style <;> decide
  · rw [isAsciiDigit_decimalMark] at hdigit
    cases hdigit

/-- The two marks of a notation. -/
lemma marks (style : FigureStyle) : (style.groupMark = '.' ∧ style.decimalMark = ',') ∨
    (style.groupMark = ',' ∧ style.decimalMark = '.') := by
  cases style
  · exact Or.inl ⟨rfl, rfl⟩
  · exact Or.inr ⟨rfl, rfl⟩

lemma isAsciiDigit_of_mem_map {l : List (Fin 10)} {c : Char} (h : c ∈ l.map digit) :
    isAsciiDigit c = true := by
  obtain ⟨d, -, rfl⟩ := List.mem_map.mp h
  exact isAsciiDigit_digit d

/-- A mark is no digit. -/
lemma notMem_of_digits {mark : Char} {l : Str} (hmark : isAsciiDigit mark = false)
    (h : ∀ c ∈ l, isAsciiDigit c = true) : mark ∉ l := by
  intro hmem
  rw [h mark hmem] at hmark
  cases hmark

/-- A writing is digits and marks, with a digit at both ends. -/
lemma isPlainFigure_text : isPlainFigure w.text = true := by
  have hne : Nat.toDigits 10 w.whole ≠ [] := Nat.toDigits_ne_nil
  have hfirst : w.text.head? = some ((Nat.toDigits 10 w.whole).head hne) := by
    rw [text, List.head?_append, w.head?_front, List.head?_eq_some_head hne, Option.some_or]
  have hlast : w.text.getLast?.any isAsciiDigit = true := by
    rcases hfraction : w.fraction with _ | ⟨a, l⟩
    · have hdigit := isAsciiDigit_of_mem_toDigits (List.getLast_mem hne)
      simp only [text, hfraction, List.isEmpty_nil, if_true, List.append_nil, w.getLast?_front,
        List.getLast?_eq_some_getLast hne, Option.any_some, hdigit]
    · have hdigits : (a :: l).map digit ≠ [] := by simp
      have hsplit : w.text = (w.front ++ [w.style.decimalMark]) ++ (a :: l).map digit := by
        simp [text, hfraction]
      rw [hsplit, List.getLast?_append, List.getLast?_eq_some_getLast hdigits, Option.some_or,
        Option.any_some, isAsciiDigit_of_mem_map (List.getLast_mem hdigits)]
  have hall : ∀ c ∈ w.text, (isAsciiDigit c || c == '.' || c == ',') = true := by
    intro c hc
    have hkinds : c = w.style.groupMark ∨ c = w.style.decimalMark ∨ isAsciiDigit c = true := by
      rcases List.mem_append.mp hc with hfront | hback
      · exact (w.mem_front hfront).imp_right Or.inr
      · split_ifs at hback
        · cases hback
        · exact Or.inr ((List.mem_cons.mp hback).imp_right isAsciiDigit_of_mem_map)
    rcases marks w.style with ⟨hgroup, hdecimal⟩ | ⟨hgroup, hdecimal⟩ <;>
      rw [hgroup, hdecimal] at hkinds <;> rcases hkinds with rfl | rfl | hdigit <;> simp [*]
  unfold isPlainFigure
  rw [hfirst, hlast, List.all_eq_true.mpr hall, Option.any_some,
    isAsciiDigit_of_mem_toDigits (List.head_mem hne)]
  rfl

/-- A mark that stands alone is no decimal one when it ends a group. -/
lemma decimalAt_eq_none {style : FigureStyle} {word : Str}
    (hother : rfind style.decimalMark word = none)
    (hgroup : ∀ d, rfind style.groupMark word = some d → endsAGroup word d = true) :
    decimalAt word = none := by
  have hlone : ∀ mark : Char, (∀ d, rfind mark word = some d → endsAGroup word d = true) →
      rfind mark word = none ∨ ∃ d, rfind mark word = some d ∧ endsAGroup word d = true := by
    intro mark h
    cases hmark : rfind mark word with
    | none => exact Or.inl rfl
    | some d => exact Or.inr ⟨d, rfl, h d hmark⟩
  rw [decimalAt]
  rcases marks style with ⟨hg, hm⟩ | ⟨hg, hm⟩ <;> rw [hg] at hgroup <;> rw [hm] at hother <;>
    rcases hlone _ hgroup with hnone | ⟨d, hd, hends⟩
  · simp [hother, hnone]
  · simp [hother, hd, hends]
  · simp [hother, hnone]
  · simp [hother, hd, hends]

/-- The last mark is the decimal one when it stands alone and ends no group. -/
lemma decimalAt_eq_some {style : FigureStyle} {word : Str} {d : ℕ}
    (hmark : rfind style.decimalMark word = some d)
    (hgroup : ∀ g, rfind style.groupMark word = some g → g ≤ d)
    (hone : word.count style.decimalMark = 1) (hends : endsAGroup word d = false) :
    decimalAt word = some d := by
  rw [decimalAt]
  rcases marks style with ⟨hg, hm⟩ | ⟨hg, hm⟩ <;> rw [hg] at hgroup <;> rw [hm] at hmark hone
  · cases hother : rfind '.' word with
    | none => simp [hmark, hone, hends]
    | some g => simp [hmark, hgroup g hother]
  · cases hother : rfind ',' word with
    | none => simp [hmark, hone, hends]
    | some g => simp [hmark, hgroup g hother]

/-- Without decimals no mark is the decimal one. -/
lemma decimalAt_text_of_nil (h : w.fraction = []) : decimalAt w.text = none := by
  have htext : w.text = w.front := by simp [text, h]
  rw [htext]
  refine decimalAt_eq_none (rfind_eq_none_iff.mpr w.decimalMark_notMem_front) ?_
  have hnone : rfind w.style.groupMark (Nat.toDigits 10 w.whole) = none :=
    rfind_eq_none_iff.mpr (notMem_of_digits (isAsciiDigit_groupMark _) fun c =>
      isAsciiDigit_of_mem_toDigits)
  intro d hd
  unfold front at hd ⊢
  split_ifs at hd ⊢
  · rcases List.inThrees_cases w.style.groupMark (Nat.toDigits 10 w.whole) with
      hsame | ⟨before, a, b, c, hsplit, hsub⟩
    · rw [hsame, hnone] at hd
      cases hd
    · have hafter : w.style.groupMark ∉ [a, b, c] :=
        notMem_of_digits (isAsciiDigit_groupMark _) fun c hc =>
          isAsciiDigit_of_mem_toDigits (hsub hc)
      rw [hsplit, rfind_append_cons hafter] at hd
      obtain rfl := Option.some.inj hd
      simp [hsplit, endsAGroup]
  · rw [hnone] at hd
    cases hd

/-- With decimals the mark before them is. -/
lemma decimalAt_text_of_ne_nil (h : w.fraction ≠ []) : decimalAt w.text = some w.front.length := by
  have htext : w.text = w.front ++ w.style.decimalMark :: w.fraction.map digit := by
    simp [text, h]
  have hback : w.style.decimalMark ∉ w.fraction.map digit :=
    notMem_of_digits (isAsciiDigit_decimalMark _) fun c => isAsciiDigit_of_mem_map
  have hlen := w.short
  rw [htext]
  refine decimalAt_eq_some (rfind_append_cons hback) ?_ ?_ ?_
  · intro g hg
    have hout : w.style.groupMark ∉ w.style.decimalMark :: w.fraction.map digit := by
      rw [List.mem_cons, not_or]
      refine ⟨?_, notMem_of_digits (isAsciiDigit_groupMark _) fun c => isAsciiDigit_of_mem_map⟩
      cases w.style <;> decide
    rw [rfind_append hout] at hg
    exact (rfind_lt hg).le
  · rw [List.count_append, List.count_cons_self, List.count_eq_zero_of_not_mem hback,
      List.count_eq_zero_of_not_mem w.decimalMark_notMem_front]
  · simp only [endsAGroup, List.length_append, List.length_cons, List.length_map]
    rw [beq_eq_false_iff_ne]
    omega

/-- Zeros at the end of a fraction, written. -/
lemma rdropWhile_map_digit (l : List (Fin 10)) :
    (l.map digit).rdropWhile (· == '0') = (l.rdropWhile (· == 0)).map digit := by
  have hzero : (· == '0') ∘ digit = (· == (0 : Fin 10)) := funext digit_beq_zero
  rw [List.rdropWhile, List.rdropWhile, ← List.map_reverse, List.dropWhile_map, hzero,
    List.map_reverse]

/-- What is read of a writing is the amount. -/
lemma canonicalFigure_text : canonicalFigure w.text = w.plain := by
  by_cases h : w.fraction = []
  · rw [canonicalFigure_of_none w.isPlainFigure_text (w.decimalAt_text_of_nil h)]
    simp [text, plain, h, filter_front]
  · have htext : w.text = w.front ++ w.style.decimalMark :: w.fraction.map digit := by
      simp [text, h]
    have hplain := w.isPlainFigure_text
    have hat := w.decimalAt_text_of_ne_nil h
    rw [htext] at hplain hat ⊢
    have hback : (w.fraction.map digit).filter isAsciiDigit = w.fraction.map digit :=
      List.filter_eq_self.mpr fun c => isAsciiDigit_of_mem_map
    rw [canonicalFigure_of_some (isAsciiDigit_decimalMark _) hplain hat, hback, filter_front,
      rdropWhile_map_digit, plain]
    simp

/-! ## Equal amounts -/

/-- A fraction is as good as its two first digits. -/
lemma fraction_eq {l : List (Fin 10)} (h : l.length ≤ 2) : ∃ a b : Fin 10,
    hundredths l = 10 * a + b ∧ l.rdropWhile (· == 0) = [a, b].rdropWhile (· == 0) := by
  rcases l with _ | ⟨a, _ | ⟨b, _ | ⟨c, l⟩⟩⟩
  · exact ⟨0, 0, rfl, rfl⟩
  · exact ⟨a, 0, rfl, by simp [List.rdropWhile]⟩
  · exact ⟨a, b, rfl, rfl⟩
  · simp at h

/-- The zeros at the end count for nothing. -/
lemma hundredths_rdropWhile {l : List (Fin 10)} (h : l.length ≤ 2) :
    hundredths (l.rdropWhile (· == 0)) = hundredths l := by
  obtain ⟨a, b, hvalue, hdrop⟩ := fraction_eq h
  rw [hdrop, hvalue]
  by_cases hb : b = 0
  · by_cases ha : a = 0
    · simp [List.rdropWhile, ha, hb, hundredths]
    · simp [List.rdropWhile, ha, hb, hundredths]
  · simp [List.rdropWhile, hb, hundredths]

/-- Two fractions of one value have the same digits, but for zeros at the end. -/
lemma rdropWhile_eq_of_hundredths {l l' : List (Fin 10)} (h : l.length ≤ 2) (h' : l'.length ≤ 2)
    (heq : hundredths l = hundredths l') : l.rdropWhile (· == 0) = l'.rdropWhile (· == 0) := by
  obtain ⟨a, b, hvalue, hdrop⟩ := fraction_eq h
  obtain ⟨a', b', hvalue', hdrop'⟩ := fraction_eq h'
  obtain rfl : a = a' := by omega
  obtain rfl : b = b' := by omega
  rw [hdrop, hdrop']

/-- The whole and the fraction of what is written in the one way. -/
lemma plain_inj {x y : Writing} (h : x.plain = y.plain) : x.whole = y.whole ∧
    x.fraction.rdropWhile (· == 0) = y.fraction.rdropWhile (· == 0) := by
  have hdot : ∀ n : ℕ, ∀ c ∈ Nat.toDigits 10 n, (c != '.') = true := by
    intro n c hc
    rw [bne_iff_ne]
    rintro rfl
    exact absurd (isAsciiDigit_of_mem_toDigits hc) (by decide)
  have hwhole : ∀ w : Writing, w.plain.takeWhile (· != '.') = Nat.toDigits 10 w.whole := by
    intro w
    rw [plain, List.takeWhile_append_of_pos (hdot w.whole)]
    split_ifs <;> simp
  have hsame : Nat.toDigits 10 x.whole = Nat.toDigits 10 y.whole := by rw [← hwhole, h, hwhole]
  have hvalue : x.whole = y.whole := by
    have hread := congrArg (fun l => Nat.ofDigitChars 10 l 0) hsame
    simpa [Nat.ofDigitChars_ten_toDigits] using hread
  refine ⟨hvalue, ?_⟩
  unfold plain at h
  rw [hsame, List.append_right_inj] at h
  split_ifs at h with hx hy hy
  · rw [List.isEmpty_iff.mp hx, List.isEmpty_iff.mp hy]
  · exact List.map_injective_iff.mpr digit_injective (List.cons.inj h).2

/-- The canonical strings of two amounts are one exactly when the amounts are, and a canonical
string is canonical. -/
theorem canonicalFigure_eq_iff (x y : Writing) :
    (canonicalFigure x.text = canonicalFigure y.text ↔ x.cents = y.cents) ∧
      canonicalFigure (canonicalFigure x.text) = canonicalFigure x.text := by
  constructor
  · rw [canonicalFigure_text, canonicalFigure_text]
    constructor
    · intro h
      obtain ⟨hwhole, hfraction⟩ := plain_inj h
      rw [cents, cents, hwhole, ← hundredths_rdropWhile x.short, ← hundredths_rdropWhile y.short,
        hfraction]
    · intro h
      obtain ⟨a, b, hx, -⟩ := fraction_eq x.short
      obtain ⟨a', b', hy, -⟩ := fraction_eq y.short
      unfold cents at h
      have hwhole : x.whole = y.whole := by omega
      have hfraction := rdropWhile_eq_of_hundredths x.short y.short (by omega)
      rw [plain, plain, hwhole, hfraction]
  · -- the canonical string is itself a writing of the amount
    have hshort : (x.fraction.rdropWhile (· == 0)).length ≤ 2 :=
      (List.rdropWhile_prefix _ _).length_le.trans x.short
    let again : Writing := ⟨.english, false, x.whole, x.fraction.rdropWhile (· == 0), hshort⟩
    have htext : again.text = x.plain := rfl
    have hplain : again.plain = x.plain := by
      simp [again, plain, List.rdropWhile_idempotent]
    rw [canonicalFigure_text, ← htext, canonicalFigure_text, hplain, htext]

end Writing

end Laws

/-- A third decimal is read as the last of a thousand when the other mark is gone. -/
example : canonicalFigure "1,234.567".toList = "1234.567".toList ∧
    canonicalFigure "1234.567".toList = "1234567".toList := by decide

end Compiler

end Mwe
