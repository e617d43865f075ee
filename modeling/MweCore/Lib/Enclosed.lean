import MweCore.Lib.Search

/-!
# What stands between two delimiters

A scanner that takes a text apart at an opening delimiter `o` and the first closing delimiter `c`
after it sees what the two enclose (`Encloses`).  A rewriting of the text that works piece by
piece is safe when no enclosure is made by putting the pieces together.  That is what `Sealed`
says of a piece: every opening in it is closed in it, and none is half written at its end.  What a
sealed piece and the text after it enclose, one of the two encloses (`encloses_append`).
-/

namespace Search

variable {α : Type*} {o c s t : List α}

/-- `inner` stands in `s` between an opening delimiter and the first closing one after it. -/
def Encloses (o c s inner : List α) : Prop :=
  ∃ a b, s = a ++ o ++ inner ++ c ++ b ∧ FirstAt c inner

/-- Every opening delimiter of `s` is closed. -/
def Closes (o c s : List α) : Prop :=
  ∀ a b, s = a ++ o ++ b → c <:+: b

/-- Every opening delimiter of `s` is closed, and none is half written at the end. -/
structure Sealed (o c s : List α) : Prop where
  closes : Closes o c s
  noneHalf : ∀ u v, u ≠ [] → v ≠ [] → o = u ++ v → ¬ u <:+ s

/-- Two texts that end alike end in the same element. -/
lemma getLast_eq_of_append {p q : List α} {x y : α} (h : p ++ [x] = q ++ [y]) : x = y := by
  have hlast := congrArg List.getLast? h
  simpa using hlast

/-- What a part encloses, the whole encloses. -/
lemma Encloses.mono {inner : List α} (h : Encloses o c t inner) (hts : t <:+: s) :
    Encloses o c s inner := by
  obtain ⟨u, v, rfl⟩ := hts
  obtain ⟨a, b, rfl, hfirst⟩ := h
  exact ⟨u ++ a, b ++ v, by simp, hfirst⟩

/-- A text without an opening delimiter encloses nothing. -/
lemma Encloses.infix_opening {inner : List α} (h : Encloses o c s inner) : o <:+: s := by
  obtain ⟨a, b, rfl, _⟩ := h
  exact ⟨a, inner ++ c ++ b, by simp⟩

/-- Closing is inherited by what stands at the end. -/
lemma Closes.of_suffix (h : Closes o c s) (hts : t <:+ s) : Closes o c t := by
  obtain ⟨p, rfl⟩ := hts
  intro a b hab
  exact h (p ++ a) b (by simp [hab])

/-- A text without an opening delimiter leaves none open. -/
lemma closes_of_not_infix (h : ¬ o <:+: s) : Closes o c s := by
  intro a b hab
  exact absurd ⟨a, b, hab.symm⟩ h

/-- A text with no element of the opening delimiter is sealed. -/
lemma sealed_of_disjoint (ho : o ≠ []) (h : ∀ x ∈ o, x ∉ s) : Sealed o c s := by
  obtain ⟨d, o', rfl⟩ := List.exists_cons_of_ne_nil ho
  refine ⟨ closes_of_not_infix ?_, ?_⟩
  · rintro ⟨a, b, rfl⟩
    exact h d (by simp) (by simp)
  · rintro u v hu _ huv ⟨p, rfl⟩
    obtain ⟨x, u', rfl⟩ := List.exists_cons_of_ne_nil hu
    exact h x (by simp [huv]) (by simp)

lemma sealed_nil (ho : o ≠ []) : Sealed o c [] :=
  sealed_of_disjoint ho (by simp)

/-- A text whose openings are closed is sealed by an element that is not one of theirs. -/
lemma Closes.sealed_concat {x : α} (h : Closes o c s) (ho : o ≠ []) (hx : x ∉ o) :
    Sealed o c (s ++ [x]) := by
  constructor
  · intro a b hab
    rcases List.eq_nil_or_concat' b with rfl | ⟨b, y, rfl⟩
    · obtain ⟨o', y, rfl⟩ := (List.eq_nil_or_concat' o).resolve_left ho
      have hxy : x = y := by
        apply getLast_eq_of_append (p := s) (q := a ++ o')
        simpa using hab
      exact absurd (by simp [hxy]) hx
    · have hs : s = a ++ o ++ b := by
        have := congrArg List.dropLast hab
        simpa [← List.append_assoc] using this
      exact (h a b hs).trans (List.infix_append' [] b [y] |>.trans (by simp))
  · rintro u v hu _ rfl ⟨p, hp⟩
    obtain ⟨u', y, rfl⟩ := (List.eq_nil_or_concat' u).resolve_left hu
    have hyx : y = x := by
      apply getLast_eq_of_append (p := p ++ u') (q := s)
      simpa using hp
    exact hx (by simp [hyx])

/-- After a sealed text an opening delimiter stands in it, or in what follows it. -/
lemma Sealed.opening_append {a r : List α} (hs : Sealed o c s) (hc : c ≠ [])
    (h : s ++ t = a ++ o ++ r) :
    (∃ x, s = a ++ o ++ x ∧ r = x ++ t) ∨ ∃ y, a = s ++ y ∧ t = y ++ o ++ r := by
  rcases List.append_eq_append_iff.mp h with ⟨x, hao, hx⟩ | ⟨x, hx, hr⟩
  · right
    rcases List.append_eq_append_iff.mp hao with ⟨y, hy, hxy⟩ | ⟨y, hy, hxy⟩
    · -- the opening is cut by the end of `s`
      rcases eq_or_ne y [] with rfl | hne
      · exact ⟨[], by simpa using hy.symm, by simp_all⟩
      rcases eq_or_ne x [] with rfl | hxne
      · obtain rfl : o = y := by simpa using hxy
        have hnil : c <:+: [] := hs.closes a [] (by simp [hy])
        exact absurd (List.eq_nil_of_infix_nil hnil) hc
      · exact absurd ⟨a, hy.symm⟩ (hs.noneHalf y x hne hxne hxy)
    · exact ⟨y, hy, by rw [hx, hxy]⟩
  · exact .inl ⟨x, hx, hr⟩

lemma Sealed.closes_append (hs : Sealed o c s) (hc : c ≠ []) (ht : Closes o c t) :
    Closes o c (s ++ t) := by
  intro a r h
  rcases hs.opening_append hc h with ⟨x, hx, rfl⟩ | ⟨y, -, hy⟩
  · exact (hs.closes a x hx).trans (List.infix_append [] x t)
  · exact ht y r hy

/-- Sealed texts put together are sealed. -/
lemma Sealed.append (hs : Sealed o c s) (hc : c ≠ []) (ht : Sealed o c t) :
    Sealed o c (s ++ t) := by
  refine ⟨hs.closes_append hc ht.closes, ?_⟩
  rintro u v hu hv rfl ⟨p, hp⟩
  rcases List.append_eq_append_iff.mp hp with ⟨x, hsx, hux⟩ | ⟨x, hpx, htx⟩
  · rcases eq_or_ne x [] with rfl | hx
    · exact ht.noneHalf u v hu hv rfl ⟨[], by simpa using hux⟩
    · exact hs.noneHalf x (t ++ v) hx (by simp [hv]) (by simp [hux]) ⟨p, hsx.symm⟩
  · exact ht.noneHalf u v hu hv rfl ⟨x, htx.symm⟩

/-- An enclosure whose delimiters share no element is sealed. -/
lemma sealed_enclosed {inner : List α} (ho : o ≠ []) (hc : c ≠ []) (hdisj : ∀ x ∈ o, x ∉ c) :
    Sealed o c (o ++ inner ++ c) := by
  constructor
  · intro a b h
    rcases List.append_eq_append_iff.mp h with ⟨x, hao, hx⟩ | ⟨x, -, rfl⟩
    · rcases List.eq_nil_or_concat' x with rfl | ⟨x, z, rfl⟩
      · exact ⟨[], [], by simpa using hx⟩
      · -- the opening would reach into the closing delimiter
        obtain ⟨o', y, rfl⟩ := (List.eq_nil_or_concat' o).resolve_left ho
        have hyz : y = z := by
          apply getLast_eq_of_append (p := a ++ o') (q := o' ++ [y] ++ inner ++ x)
          simpa using hao
        exact absurd (by simp [hx, hyz]) (hdisj y (by simp))
    · exact ⟨x, [], by simp⟩
  · rintro u v hu _ rfl ⟨p, hp⟩
    obtain ⟨u', y, rfl⟩ := (List.eq_nil_or_concat' u).resolve_left hu
    obtain ⟨c', d, rfl⟩ := (List.eq_nil_or_concat' c).resolve_left hc
    have hyd : y = d := by
      apply getLast_eq_of_append (p := p ++ u') (q := u' ++ [y] ++ v ++ inner ++ c')
      simpa using hp
    exact hdisj y (by simp) (by simp [hyd])

/-- A text without a closing delimiter adds no enclosure to the text it follows, when an element
that is not of the delimiter stands between. -/
lemma encloses_of_append_cons {inner : List α} {x : α} (hx : x ∉ c)
    (ht : ¬ c <:+: t) (h : Encloses o c (s ++ x :: t) inner) : Encloses o c s inner := by
  obtain ⟨a, b, hab, hfirst⟩ := h
  rcases List.append_eq_append_iff.mp hab with ⟨y, hy, hxy⟩ | ⟨y, rfl, -⟩
  · cases y with
    | nil => exact ⟨a, [], by simpa using hy.symm, hfirst⟩
    | cons x' y =>
      -- the closing delimiter would stand after `x`, or hold it
      exfalso
      obtain ⟨rfl, rfl⟩ := List.cons.inj hxy
      have hend : (a ++ o ++ inner) ++ c = (s ++ [x]) ++ y := by simpa using hy
      rcases List.append_eq_append_iff.mp hend with ⟨z, hz, hcz⟩ | ⟨z, -, rfl⟩
      · rcases List.eq_nil_or_concat' z with rfl | ⟨z, w, rfl⟩
        · exact ht ⟨[], b, by simp [hcz]⟩
        · have hw : x = w := by
            apply getLast_eq_of_append (p := s) (q := a ++ o ++ inner ++ z)
            simpa using hz
          exact hx (by simp [hcz, hw])
      · exact ht ⟨z, b, by simp⟩
  · exact ⟨a, y, rfl, hfirst⟩

section Append

variable [DecidableEq α]

/-- What a sealed text and the text after it enclose, one of the two encloses. -/
lemma encloses_append {inner : List α} (hs : Sealed o c s) (hc : c ≠ [])
    (h : Encloses o c (s ++ t) inner) : Encloses o c s inner ∨ Encloses o c t inner := by
  obtain ⟨a, b, hab, hfirst⟩ := h
  rcases hs.opening_append hc (r := inner ++ c ++ b) (by simpa using hab) with
    ⟨x, hx, hin⟩ | ⟨y, -, ht⟩
  · -- what closes the opening is in `s` too
    left
    obtain ⟨p, q, hpq⟩ := exists_splitOnce_of_infix hc (hs.closes a x hx)
    have hinner : splitOnce c (x ++ t) = some (inner, b) := by
      rw [← hin]
      exact splitOnce_of_firstAt hc hfirst b
    rw [splitOnce_append_right hc hpq] at hinner
    obtain ⟨rfl, -⟩ := Prod.mk.inj (Option.some.inj hinner)
    refine ⟨a, q, ?_, hfirst⟩
    rw [hx, ← splitOnce_append hc hpq]
    simp
  · exact .inr ⟨y, b, by simp [ht], hfirst⟩

end Append

end Search
