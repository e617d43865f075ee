import Mathlib.Data.List.Basic

/-!
# Digits in groups of three

`inThrees` puts a mark between the groups of three of a numeral, counted from its end.  The mark is
the only thing it adds (`filter_inThrees`), and where it stands last three digits follow it
(`inThrees_cases`).
-/

namespace List

variable {α : Type*}

/-- A mark before every fourth element, from the front. -/
def marked (mark : α) : List α → List α
  | a :: b :: c :: d :: l => a :: b :: c :: mark :: marked mark (d :: l)
  | l => l

/-- A mark between the groups of three, counted from the end. -/
def inThrees (mark : α) (l : List α) : List α := (marked mark l.reverse).reverse

variable {mark : α} {l : List α}

lemma mem_marked {x : α} (h : x ∈ marked mark l) : x = mark ∨ x ∈ l := by
  fun_induction marked mark l with
  | case1 a b c d l ih =>
    simp only [mem_cons] at h ih ⊢
    rcases h with h | h | h | h | h
    · exact Or.inr (Or.inl h)
    · exact Or.inr (Or.inr (Or.inl h))
    · exact Or.inr (Or.inr (Or.inr (Or.inl h)))
    · exact Or.inl h
    · exact (ih h).imp_right fun h => Or.inr (Or.inr (Or.inr h))
  | case2 l => exact Or.inr h

lemma filter_marked {p : α → Bool} (hmark : p mark = false) (h : ∀ x ∈ l, p x = true) :
    (marked mark l).filter p = l := by
  fun_induction marked mark l with
  | case1 a b c d l ih =>
    have hrest := ih fun x hx => h x (by simp only [mem_cons] at hx ⊢; tauto)
    simp [h a, h b, h c, hmark, hrest]
  | case2 l => exact filter_eq_self.mpr h

lemma marked_cases (mark : α) (l : List α) :
    marked mark l = l ∨ ∃ a b c rest, marked mark l = a :: b :: c :: mark :: rest ∧
      [a, b, c] ⊆ l := by
  fun_cases marked mark l with
  | case1 a b c d l => exact Or.inr ⟨a, b, c, _, rfl, by simp⟩
  | case2 l => exact Or.inl rfl

lemma mem_inThrees {x : α} (h : x ∈ inThrees mark l) : x = mark ∨ x ∈ l := by
  rw [inThrees, mem_reverse] at h
  exact (mem_marked h).imp_right mem_reverse.mp

/-- Nothing but marks is added. -/
lemma filter_inThrees {p : α → Bool} (hmark : p mark = false) (h : ∀ x ∈ l, p x = true) :
    (inThrees mark l).filter p = l := by
  rw [inThrees, filter_reverse, filter_marked hmark fun x hx => h x (mem_reverse.mp hx),
    reverse_reverse]

/-- A numeral is as it was, or three digits follow its last mark. -/
lemma inThrees_cases (mark : α) (l : List α) :
    inThrees mark l = l ∨ ∃ front a b c, inThrees mark l = front ++ mark :: [a, b, c] ∧
      [a, b, c] ⊆ l := by
  rcases marked_cases mark l.reverse with hsame | ⟨a, b, c, rest, hmarked, hsub⟩
  · exact Or.inl (by rw [inThrees, hsame, reverse_reverse])
  · refine Or.inr ⟨rest.reverse, c, b, a, by simp [inThrees, hmarked], fun x hx => ?_⟩
    exact mem_reverse.mp (hsub (by simp only [mem_cons] at hx ⊢; tauto))

lemma getLast?_marked : (marked mark l).getLast? = l.getLast? := by
  fun_induction marked mark l with
  | case1 a b c d l ih =>
    have hfront : a :: b :: c :: mark :: marked mark (d :: l) =
      [a, b, c, mark] ++ marked mark (d :: l) := rfl
    have hsame : a :: b :: c :: d :: l = [a, b, c] ++ d :: l := rfl
    rw [hfront, hsame, getLast?_append, getLast?_append, ih]
    simp [getLast?_cons]
  | case2 l => rfl

/-- The first element stays the first. -/
lemma head?_inThrees : (inThrees mark l).head? = l.head? := by
  rw [inThrees, head?_reverse, getLast?_marked, getLast?_reverse]

/-- The last element stays the last. -/
lemma getLast?_inThrees : (inThrees mark l).getLast? = l.getLast? := by
  rw [inThrees, getLast?_reverse, ← head?_reverse]
  fun_cases marked mark l.reverse <;> simp_all

end List
