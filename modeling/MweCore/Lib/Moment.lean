import MweCore.Lib.Rfc3339

/-!
# Instants of whole seconds, in years of either sign

A calendar that knows years before the first and after the last of four digits writes them with a
sign, and otherwise an instant of whole seconds at a fixed width: `Moment.render`.  In the years of
four digits the texts compare as the instants do, `Moment.render_lt_iff`.
-/

namespace Rfc3339

/-- The number of days of a month of the proleptic Gregorian calendar. -/
def daysIn (year : ℤ) (month : ℕ) : ℕ :=
  if month = 2 then
    if year % 4 = 0 ∧ (year % 100 ≠ 0 ∨ year % 400 = 0) then 29 else 28
  else if month ∈ [4, 6, 9, 11] then 30
  else 31

/-- A day of the calendar. -/
structure Day where
  year : ℤ
  month : ℕ
  day : ℕ
  month_pos : 1 ≤ month
  month_le : month ≤ 12
  day_pos : 1 ≤ day
  day_le : day ≤ daysIn year month
  deriving DecidableEq

/-- An instant in UTC; second 60 is a leap second. -/
structure Moment extends Day where
  hour : ℕ
  minute : ℕ
  second : ℕ
  nanos : ℕ
  hour_lt : hour < 24
  minute_lt : minute < 60
  second_le : second ≤ 60
  nanos_lt : nanos < 1000000000
  deriving DecidableEq

lemma daysIn_le (year : ℤ) (month : ℕ) : daysIn year month ≤ 31 := by
  unfold daysIn
  split_ifs <;> omega

namespace Moment

/-- An instant without its fraction of a second. -/
def truncate (x : Moment) : Moment := { x with nanos := 0, nanos_lt := zero_lt_nanos }

/-- An instant is in an earlier second than another. -/
def Before (x y : Moment) : Prop :=
  x.year < y.year ∨ x.year = y.year ∧ (x.month < y.month ∨ x.month = y.month ∧
    (x.day < y.day ∨ x.day = y.day ∧ (x.hour < y.hour ∨ x.hour = y.hour ∧
      (x.minute < y.minute ∨ x.minute = y.minute ∧ x.second < y.second))))

/-- A year: four digits, or a sign and at least four. -/
def renderYear (year : ℤ) : List Char :=
  if 0 ≤ year ∧ year ≤ 9999 then pad 4 year.toNat
  else (if year < 0 then '-' else '+') ::
    if year.natAbs ≤ 9999 then pad 4 year.natAbs else Nat.toDigits 10 year.natAbs

/-- The rest of an instant, at a fixed width. -/
def renderRest (x : Moment) : List Char :=
  '-' :: (pad 2 x.month ++ '-' :: (pad 2 x.day ++ 'T' :: (pad 2 x.hour ++
    ':' :: (pad 2 x.minute ++ ':' :: (pad 2 x.second ++ ['Z'])))))

/-- An instant as text, to the second. -/
def render (x : Moment) : List Char := renderYear x.year ++ renderRest x

/-- A year of four digits. -/
def FourDigits (x : Moment) : Prop := 0 ≤ x.year ∧ x.year ≤ 9999

@[simp] lemma render_truncate (x : Moment) : x.truncate.render = x.render := rfl

/-- The rests compare as the instants of one year do. -/
lemma renderRest_lt_iff (x y : Moment) : x.renderRest < y.renderRest ↔
    (x.month < y.month ∨ x.month = y.month ∧
    (x.day < y.day ∨ x.day = y.day ∧ (x.hour < y.hour ∨ x.hour = y.hour ∧
      (x.minute < y.minute ∨ x.minute = y.minute ∧ x.second < y.second)))) := by
  have hself : ∀ (a : Char) {u v : List Char}, a :: u < a :: v ↔ u < v := by
    intro a u v
    simp
  have hmonth : ∀ z : Moment, z.month < 10 ^ 2 := fun z => by have := z.month_le; omega
  have hday : ∀ z : Moment, z.day < 10 ^ 2 := fun z => by
    have := z.day_le
    have := daysIn_le z.year z.month
    omega
  have hhour : ∀ z : Moment, z.hour < 10 ^ 2 := fun z => by have := z.hour_lt; omega
  have hminute : ∀ z : Moment, z.minute < 10 ^ 2 := fun z => by have := z.minute_lt; omega
  have hsecond : ∀ z : Moment, z.second < 10 ^ 2 := fun z => by have := z.second_le; omega
  have hend : ¬ ['Z'] < ['Z'] := lt_irrefl _
  simp only [renderRest]
  rw [hself, pad_append_lt_iff 2 _ _ (hmonth x) (hmonth y), hself,
    pad_append_lt_iff 2 _ _ (hday x) (hday y), hself,
    pad_append_lt_iff 2 _ _ (hhour x) (hhour y), hself,
    pad_append_lt_iff 2 _ _ (hminute x) (hminute y), hself,
    pad_append_lt_iff 2 _ _ (hsecond x) (hsecond y)]
  simp only [hend, and_false, or_false]

/-- Instants of four-digit years compare as text. -/
theorem render_lt_iff {x y : Moment} (hx : x.FourDigits) (hy : y.FourDigits) :
    x.render < y.render ↔ x.Before y := by
  obtain ⟨hx₀, hx₁⟩ := hx
  obtain ⟨hy₀, hy₁⟩ := hy
  have hyear : x.year.toNat < y.year.toNat ↔ x.year < y.year := by omega
  have hsame : x.year.toNat = y.year.toNat ↔ x.year = y.year := by omega
  rw [render, render, renderYear, renderYear, if_pos ⟨hx₀, hx₁⟩, if_pos ⟨hy₀, hy₁⟩,
    pad_append_lt_iff 4 _ _ (by omega) (by omega), hyear, hsame, renderRest_lt_iff]
  rfl

/-- A year that is not of four digits is written with a sign. -/
lemma exists_render_eq_cons {x : Moment} (hx : ¬ x.FourDigits) :
    ∃ t, x.render = '-' :: t ∨ x.render = '+' :: t := by
  unfold FourDigits at hx
  rw [render, renderYear, if_neg hx]
  split_ifs
  · exact ⟨_, Or.inl rfl⟩
  · exact ⟨_, Or.inl rfl⟩
  · exact ⟨_, Or.inr rfl⟩
  · exact ⟨_, Or.inr rfl⟩

/-- The first character of an instant is a digit or a sign. -/
lemma exists_render_eq (x : Moment) :
    ∃ c t, x.render = c :: t ∧ (c.isDigit = true ∨ c = '-' ∨ c = '+') := by
  by_cases hx : x.FourDigits
  · have hcons : ∀ w n (u : List Char), ∃ c t, pad (w + 1) n ++ u = c :: t ∧ c ∈ pad (w + 1) n := by
      intro w
      induction w with
      | zero => exact fun n u => ⟨digit n, u, rfl, by simp [pad]⟩
      | succ w ih =>
        intro n u
        obtain ⟨c, t, heq, hmem⟩ := ih (n / 10) ([digit n] ++ u)
        exact ⟨c, t, by rw [pad, List.append_assoc, heq], by rw [pad]; simp [hmem]⟩
    obtain ⟨c, t, heq, hmem⟩ := hcons 3 x.year.toNat x.renderRest
    refine ⟨c, t, ?_, Or.inl (isDigit_of_mem_pad hmem)⟩
    unfold FourDigits at hx
    rw [render, renderYear, if_pos hx, heq]
  · obtain ⟨t, h | h⟩ := exists_render_eq_cons hx
    · exact ⟨_, t, h, Or.inr (Or.inl rfl)⟩
    · exact ⟨_, t, h, Or.inr (Or.inr rfl)⟩

/-- The last character of an instant is the `Z` of UTC. -/
lemma render_eq_concat (x : Moment) : ∃ t, x.render = t ++ ['Z'] := by
  refine ⟨renderYear x.year ++ '-' :: (pad 2 x.month ++ '-' :: (pad 2 x.day ++ 'T' ::
    (pad 2 x.hour ++ ':' :: (pad 2 x.minute ++ ':' :: pad 2 x.second)))), ?_⟩
  simp [render, renderRest]

end Moment

/-! ## Reading the text back -/

/-- A number of so many digits at the start of a text, and what follows it. -/
def readDigits : ℕ → ℕ → List Char → Option (ℕ × List Char)
  | 0, n, s => some (n, s)
  | _ + 1, _, [] => none
  | w + 1, n, c :: s => if c.isDigit then readDigits w (10 * n + (c.toNat - 48)) s else none

/-- A given character at the start of a text. -/
def expect (c : Char) : List Char → Option (List Char)
  | [] => none
  | d :: s => if d = c then some s else none

/-- A day at the start of a text. -/
def readDay (s : List Char) : Option (Day × List Char) := do
  let (year, s) ← readDigits 4 0 s
  let (month, s) ← readDigits 2 0 (← expect '-' s)
  let (day, s) ← readDigits 2 0 (← expect '-' s)
  if h : 1 ≤ month ∧ month ≤ 12 ∧ 1 ≤ day ∧ day ≤ daysIn year month then
    pure ({ year := year, month := month, day := day, month_pos := h.1, month_le := h.2.1
            day_pos := h.2.2.1, day_le := h.2.2.2 }, s)
  else none

/-- An instant in UTC of a year of four digits, to the second. -/
def readMoment (s : List Char) : Option Moment := do
  let (day, s) ← readDay s
  let (hour, s) ← readDigits 2 0 (← expect 'T' s)
  let (minute, s) ← readDigits 2 0 (← expect ':' s)
  let (second, s) ← readDigits 2 0 (← expect ':' s)
  if h : hour < 24 ∧ minute < 60 ∧ second ≤ 60 ∧ s = ['Z'] then
    pure { day with
      hour := hour, minute := minute, second := second, nanos := 0, hour_lt := h.1
      minute_lt := h.2.1, second_le := h.2.2.1, nanos_lt := by omega }
  else none

lemma readDigits_pad (w k m n : ℕ) (s : List Char) :
    readDigits (w + k) m (pad w n ++ s) = readDigits k (m * 10 ^ w + n % 10 ^ w) s := by
  induction w generalizing k n s with
  | zero => simp [pad, Nat.mod_one]
  | succ w ih =>
    have hdigit : (digit n).isDigit = true ∧ (digit n).toNat - 48 = n % 10 := by
      have hall : ∀ a < 10, (Nat.digitChar a).isDigit = true ∧ (Nat.digitChar a).toNat - 48 = a := by
        decide
      exact hall _ (Nat.mod_lt n (by omega))
    have hvalue : 10 * (m * 10 ^ w + n / 10 % 10 ^ w) + n % 10 =
        m * 10 ^ (w + 1) + n % 10 ^ (w + 1) := by
      rw [pow_succ', Nat.mod_mul]
      ring
    have hwidth : w + 1 + k = w + (k + 1) := by omega
    rw [pad, List.append_assoc, hwidth, ih (k + 1) (n / 10), List.singleton_append, readDigits,
      if_pos hdigit.1, hdigit.2, hvalue]

lemma readDigits_pad_zero {w n : ℕ} (h : n < 10 ^ w) (s : List Char) :
    readDigits w 0 (pad w n ++ s) = some (n, s) := by
  have hread := readDigits_pad w 0 0 n s
  rw [Nat.add_zero, Nat.zero_mul, Nat.zero_add, Nat.mod_eq_of_lt h] at hread
  exact hread

@[simp] lemma expect_cons (c : Char) (s : List Char) : expect c (c :: s) = some s := if_pos rfl

lemma Moment.two_digits (x : Moment) : x.month < 10 ^ 2 ∧ x.day < 10 ^ 2 ∧ x.hour < 10 ^ 2 ∧
    x.minute < 10 ^ 2 ∧ x.second < 10 ^ 2 := by
  have hmonth := x.month_le
  have hday := x.day_le
  have hdays := daysIn_le x.year x.month
  have hhour := x.hour_lt
  have hminute := x.minute_lt
  have hsecond := x.second_le
  omega

/-- The day of an instant is read from its text. -/
lemma readDay_render {x : Moment} (hx : x.FourDigits) :
    readDay x.render = some (x.toDay, 'T' :: (pad 2 x.hour ++ ':' :: (pad 2 x.minute ++
      ':' :: (pad 2 x.second ++ ['Z'])))) := by
  obtain ⟨hmonth, hday, -⟩ := x.two_digits
  obtain ⟨hlow, hhigh⟩ := hx
  have hyear : x.year.toNat < 10 ^ 4 := by omega
  have hcast : (x.year.toNat : ℤ) = x.year := Int.toNat_of_nonneg hlow
  rw [Moment.render, Moment.renderYear, if_pos ⟨hlow, hhigh⟩, Moment.renderRest, readDay,
    readDigits_pad_zero hyear]
  simp only [Option.bind_eq_bind, Option.bind_some, expect_cons, readDigits_pad_zero hmonth,
    readDigits_pad_zero hday, hcast]
  rw [dif_pos ⟨x.month_pos, x.month_le, x.day_pos, x.day_le⟩]
  rfl

/-- An instant is read back from its text. -/
theorem readMoment_render {x : Moment} (hx : x.FourDigits) (hnanos : x.nanos = 0) :
    readMoment x.render = some x := by
  obtain ⟨-, -, hhour, hminute, hsecond⟩ := x.two_digits
  simp only [readMoment, readDay_render hx, Option.bind_eq_bind, Option.bind_some, expect_cons,
    readDigits_pad_zero hhour, readDigits_pad_zero hminute, readDigits_pad_zero hsecond]
  rw [dif_pos ⟨x.hour_lt, x.minute_lt, x.second_le, trivial⟩]
  simp [← hnanos]

/-- A sign is no digit. -/
lemma readDay_render_of_not {x : Moment} (hx : ¬ x.FourDigits) : readDay x.render = none := by
  obtain ⟨t, h | h⟩ := Moment.exists_render_eq_cons hx
  · rw [h]
    rfl
  · rw [h]
    rfl

end Rfc3339
