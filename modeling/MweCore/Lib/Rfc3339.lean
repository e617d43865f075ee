import Mathlib

/-!
# Instants as text

RFC 3339 writes an instant from the largest unit down, each at a fixed width, so that texts compare
as the instants do: `Civil.render_lt_iff`.  Two things could break this and only one does.  The
fraction of a second is written at the least of the widths three, six and nine that loses nothing,
or not at all, and what follows it, a plus sign, stands below the point and the digits.  A year past
9999 is written with a sign, and stands below every year of four digits: `Civil.render_lt_of_year`.
-/

namespace Rfc3339

/-! ## Numbers at a fixed width -/

/-- A digit. -/
def digit (n : ℕ) : Char := Nat.digitChar (n % 10)

/-- The last digits of a number, with zeros in front. -/
def pad : ℕ → ℕ → List Char
  | 0, _ => []
  | w + 1, n => pad w (n / 10) ++ [digit n]

lemma digit_lt_iff {m n : ℕ} : digit m < digit n ↔ m % 10 < n % 10 := by
  have hall : ∀ a < 10, ∀ b < 10, Nat.digitChar a < Nat.digitChar b ↔ a < b := by decide
  exact hall _ (Nat.mod_lt m (by omega)) _ (Nat.mod_lt n (by omega))

lemma digit_inj {m n : ℕ} : digit m = digit n ↔ m % 10 = n % 10 := by
  have hall : ∀ a < 10, ∀ b < 10, Nat.digitChar a = Nat.digitChar b ↔ a = b := by decide
  exact hall _ (Nat.mod_lt m (by omega)) _ (Nat.mod_lt n (by omega))

/-- Nothing that stands below the digits stands above one. -/
lemma lt_digit {c : Char} (h : c < '0') (n : ℕ) : c < digit n := by
  have hall : ∀ a < 10, '0' ≤ Nat.digitChar a := by decide
  exact lt_of_lt_of_le h (hall _ (Nat.mod_lt n (by omega)))

/-- Numbers of one width compare as numbers, whatever follows them. -/
lemma pad_append_lt_iff (w : ℕ) {m n : ℕ} (x y : List Char) (hm : m < 10 ^ w) (hn : n < 10 ^ w) :
    pad w m ++ x < pad w n ++ y ↔ m < n ∨ m = n ∧ x < y := by
  induction w generalizing m n x y with
  | zero =>
    obtain rfl : m = 0 := by omega
    obtain rfl : n = 0 := by omega
    simp [pad]
  | succ w ih =>
    have hm' : m / 10 < 10 ^ w := by rw [pow_succ] at hm; omega
    have hn' : n / 10 < 10 ^ w := by rw [pow_succ] at hn; omega
    rw [pad, pad, List.append_assoc, List.append_assoc, ih _ _ hm' hn']
    simp only [List.singleton_append, List.cons_lt_cons_iff, digit_lt_iff, digit_inj]
    constructor
    · rintro (h | ⟨h, h' | ⟨h', hxy⟩⟩)
      · exact Or.inl (by omega)
      · exact Or.inl (by omega)
      · exact Or.inr ⟨by omega, hxy⟩
    · rintro (h | ⟨rfl, hxy⟩)
      · by_cases hdiv : m / 10 = n / 10
        · exact Or.inr ⟨hdiv, Or.inl (by omega)⟩
        · exact Or.inl (by omega)
      · exact Or.inr ⟨rfl, Or.inr ⟨rfl, hxy⟩⟩

/-- A number is written in digits only. -/
lemma isDigit_of_mem_pad {w n : ℕ} {c : Char} (h : c ∈ pad w n) : c.isDigit = true := by
  induction w generalizing n with
  | zero => cases h
  | succ w ih =>
    rw [pad, List.mem_append, List.mem_singleton] at h
    rcases h with h | rfl
    · exact ih h
    · have hall : ∀ a < 10, (Nat.digitChar a).isDigit = true := by decide
      exact hall _ (Nat.mod_lt n (by omega))

/-- What begins below the digits stands below a number. -/
lemma cons_lt_pad {c : Char} (h : c < '0') (w n : ℕ) (x y : List Char) :
    c :: x < pad (w + 1) n ++ y := by
  induction w generalizing n y with
  | zero => exact List.cons_lt_cons_iff.mpr (Or.inl (lt_digit h n))
  | succ w ih =>
    rw [pad, List.append_assoc]
    exact ih (n / 10) ([digit n] ++ y)

/-! ## The fraction of a second -/

/-- A fraction, at the least width that loses nothing, and the offset from UTC. -/
def fraction (nanos : ℕ) : List Char :=
  if nanos = 0 then "+00:00".toList
  else if nanos % 1000000 = 0 then '.' :: (pad 3 (nanos / 1000000) ++ "+00:00".toList)
  else if nanos % 1000 = 0 then '.' :: (pad 6 (nanos / 1000) ++ "+00:00".toList)
  else '.' :: (pad 9 nanos ++ "+00:00".toList)

/-- The digits of a number below a power of ten, and of what is left. -/
lemma pad_add (w k n : ℕ) : pad (w + k) n = pad w (n / 10 ^ k) ++ pad k (n % 10 ^ k) := by
  induction k generalizing n with
  | zero => simp [pad]
  | succ k ih =>
    have hdiv : n / 10 / 10 ^ k = n / 10 ^ (k + 1) := by
      rw [Nat.div_div_eq_div_mul, pow_succ']
    have hmod : n / 10 % 10 ^ k = n % 10 ^ (k + 1) / 10 := by
      rw [pow_succ', Nat.mod_mul_right_div_self]
    have hdigit : digit n = digit (n % 10 ^ (k + 1)) := by
      rw [digit, digit, pow_succ', Nat.mod_mul_right_mod]
    rw [← Nat.add_assoc, pad, pad, ih, hdiv, hmod, hdigit, List.append_assoc]

/-- A fraction of some groups of three digits, up to the last that is not zero. -/
def groups : ℕ → ℕ → List Char
  | 0, _ => "+00:00".toList
  | g + 1, n => if n = 0 then "+00:00".toList else pad 3 (n / 1000 ^ g) ++ groups g (n % 1000 ^ g)

lemma groups_zero (g : ℕ) : groups g 0 = "+00:00".toList := by
  cases g <;> rfl

lemma groups_succ (g n : ℕ) : groups (g + 1) n =
    if n = 0 then "+00:00".toList else pad 3 (n / 1000 ^ g) ++ groups g (n % 1000 ^ g) := rfl

lemma groups_strictMono (g : ℕ) {m n : ℕ} (h : m < n) (hn : n < 1000 ^ g) :
    groups g m < groups g n := by
  induction g generalizing m n with
  | zero => omega
  | succ g ih =>
    rw [groups_succ, groups_succ, if_neg (Nat.ne_of_gt (Nat.zero_lt_of_lt h))]
    by_cases hm : m = 0
    · rw [if_pos hm]
      exact cons_lt_pad (by decide) 2 _ _ _
    have hpow : 0 < 1000 ^ g := by positivity
    have hbound : ∀ {x}, x < 1000 ^ (g + 1) → x / 1000 ^ g < 10 ^ 3 := by
      intro x hx
      rw [Nat.div_lt_iff_lt_mul hpow]
      rw [pow_succ'] at hx
      exact hx
    rw [if_neg hm, pad_append_lt_iff 3 _ _ (hbound (h.trans hn)) (hbound hn)]
    rcases Nat.lt_or_eq_of_le (Nat.div_le_div_right (c := 1000 ^ g) h.le) with hlt | heq
    · exact Or.inl hlt
    · have hm' := Nat.div_add_mod m (1000 ^ g)
      have hn' := Nat.div_add_mod n (1000 ^ g)
      rw [heq] at hm'
      exact Or.inr ⟨heq, ih (by omega) (Nat.mod_lt n hpow)⟩

lemma fraction_eq (n : ℕ) :
    fraction n = if n = 0 then "+00:00".toList else '.' :: groups 3 n := by
  have hfirst : n % 1000 ^ 2 = n % 1000000 := by norm_num
  have hsecond : n % 1000000 % 1000 ^ 1 = n % 1000 := by omega
  by_cases hzero : n = 0
  · rw [fraction, if_pos hzero, if_pos hzero]
  rw [fraction, if_neg hzero, if_neg hzero, groups_succ, if_neg hzero, hfirst]
  by_cases hmillis : n % 1000000 = 0
  · rw [if_pos hmillis, hmillis, groups_zero]
    rfl
  rw [if_neg hmillis, groups_succ, if_neg hmillis, hsecond]
  by_cases hmicros : n % 1000 = 0
  · have hhigh : n / 1000 / 10 ^ 3 = n / 1000 ^ 2 := by omega
    have hlow : n / 1000 % 10 ^ 3 = n % 1000000 / 1000 ^ 1 := by omega
    rw [if_pos hmicros, hmicros, groups_zero, pad_add 3 3, hhigh, hlow, List.append_assoc]
  · have hhigh : n / 10 ^ 6 = n / 1000 ^ 2 := by norm_num
    have hmiddle : n % 10 ^ 6 / 10 ^ 3 = n % 1000000 / 1000 ^ 1 := by norm_num
    have hlow : n % 10 ^ 6 % 10 ^ 3 = n % 1000 / 1000 ^ 0 := by omega
    rw [if_neg hmicros, groups_succ, if_neg hmicros, pad_add 3 6, pad_add 3 3, hhigh, hmiddle, hlow,
      List.append_assoc, List.append_assoc]
    rfl

/-- The fractions of a second compare as numbers. -/
lemma fraction_lt_iff {m n : ℕ} (hm : m < 1000000000) (hn : n < 1000000000) :
    fraction m < fraction n ↔ m < n := by
  have hmono : ∀ {x y : ℕ}, x < y → y < 1000000000 → fraction x < fraction y := by
    intro x y hlt hy
    rw [fraction_eq, fraction_eq, if_neg (Nat.ne_of_gt (Nat.zero_lt_of_lt hlt))]
    split_ifs
    · exact List.cons_lt_cons_iff.mpr (Or.inl (by decide))
    · exact List.cons_lt_cons_iff.mpr (Or.inr ⟨rfl, groups_strictMono 3 hlt hy⟩)
  constructor
  · intro h
    by_contra hge
    rcases Nat.lt_or_eq_of_le (Nat.le_of_not_lt hge) with hlt | heq
    · exact lt_asymm h (hmono hlt hm)
    · rw [heq] at h
      exact lt_irrefl _ h
  · exact fun h => hmono h hn

/-! ## Instants -/

/-- An instant on the calendar, in UTC. -/
structure Civil where
  year : ℕ
  month : ℕ
  day : ℕ
  hour : ℕ
  minute : ℕ
  second : ℕ
  nanos : ℕ
  month_lt : month < 100
  day_lt : day < 100
  hour_lt : hour < 100
  minute_lt : minute < 100
  second_lt : second < 100
  nanos_lt : nanos < 1000000000

lemma zero_lt_hundred : 0 < 100 := by decide

lemma one_lt_hundred : 1 < 100 := by decide

lemma zero_lt_nanos : 0 < 1000000000 := by decide

namespace Civil

/-- The year; past 9999 with a sign. -/
def renderYear (year : ℕ) : List Char :=
  if year ≤ 9999 then pad 4 year else '+' :: Nat.toDigits 10 year

/-- An instant as text. -/
def render (c : Civil) : List Char :=
  renderYear c.year ++ '-' :: (pad 2 c.month ++ '-' :: (pad 2 c.day ++ 'T' :: (pad 2 c.hour ++
    ':' :: (pad 2 c.minute ++ ':' :: (pad 2 c.second ++ fraction c.nanos)))))

/-- An instant is written in digits and five other characters. -/
lemma notMem_render {c : Char} (hdigit : c.isDigit = false) (hother : c ∉ "-T:+.".toList)
    (x : Civil) : c ∉ x.render := by
  obtain ⟨hdash, hT, hcolon, hplus, hpoint⟩ : c ≠ '-' ∧ c ≠ 'T' ∧ c ≠ ':' ∧ c ≠ '+' ∧ c ≠ '.' := by
    simpa using hother
  have hzero : c ≠ '0' := by
    rintro rfl
    cases hdigit
  have hpad : ∀ w n, c ∉ pad w n := by
    intro w n hmem
    rw [isDigit_of_mem_pad hmem] at hdigit
    cases hdigit
  have hyear : c ∉ renderYear x.year := by
    have hdigits : c ∉ Nat.toDigits 10 x.year := by
      intro hmem
      rw [Nat.isDigit_of_mem_toDigits (by decide) (by decide) hmem] at hdigit
      cases hdigit
    unfold renderYear
    split_ifs
    · exact hpad 4 _
    · simp [hdigits, hplus]
  have hzone : c ∉ "+00:00".toList := by simp [hplus, hzero, hcolon]
  have hfraction : c ∉ fraction x.nanos := by
    unfold fraction
    split_ifs <;> simp only [List.mem_cons, List.mem_append, hpoint, hpad, hzone, or_self,
      not_false_eq_true]
  simp only [render, List.mem_append, List.mem_cons, hyear, hpad, hfraction, hdash, hT, hcolon,
    or_self, not_false_eq_true]

/-- An instant is before another: by the year, and in one year by the rest. -/
def Before (c d : Civil) : Prop :=
  c.year < d.year ∨ c.year = d.year ∧ (c.month < d.month ∨ c.month = d.month ∧
    (c.day < d.day ∨ c.day = d.day ∧ (c.hour < d.hour ∨ c.hour = d.hour ∧
      (c.minute < d.minute ∨ c.minute = d.minute ∧ (c.second < d.second ∨ c.second = d.second ∧
        c.nanos < d.nanos)))))

/-- Instants of four-digit years compare as text. -/
theorem render_lt_iff {c d : Civil} (hc : c.year ≤ 9999) (hd : d.year ≤ 9999) :
    c.render < d.render ↔ c.Before d := by
  have hself : ∀ (a : Char) {x y : List Char}, a :: x < a :: y ↔ x < y := by
    intro a x y
    simp
  simp only [render, renderYear, if_pos hc, if_pos hd]
  rw [pad_append_lt_iff 4 _ _ (by omega) (by omega), hself,
    pad_append_lt_iff 2 _ _ c.month_lt d.month_lt, hself,
    pad_append_lt_iff 2 _ _ c.day_lt d.day_lt, hself,
    pad_append_lt_iff 2 _ _ c.hour_lt d.hour_lt, hself,
    pad_append_lt_iff 2 _ _ c.minute_lt d.minute_lt, hself,
    pad_append_lt_iff 2 _ _ c.second_lt d.second_lt, fraction_lt_iff c.nanos_lt d.nanos_lt]
  rfl

/-- A year past 9999 comes before every other as text. -/
theorem render_lt_of_year {c d : Civil} (hc : 9999 < c.year) (hd : d.year ≤ 9999) :
    c.render < d.render := by
  simp only [render, renderYear, if_neg (Nat.not_le.mpr hc), if_pos hd]
  exact cons_lt_pad (by decide) 3 _ _ _

end Civil

end Rfc3339
