import MweCore.Lib.Moment
import MweCore.Lib.Str

/-!
# One spelling for a bound

`valid_from` and `valid_to` are compared as text, so every bound a writer proposes goes through
`canonicalBound`: an instant with any offset, or a day, becomes an instant in UTC, of whole seconds,
at a fixed width.  The width is fixed for the years of four digits only.  An offset can carry a text
of such a year out of them, and a day can be named with a sign; then the bound starts with a sign,
stands below all others as text, and is not read back.

`embeds_iff` says so: bounds compare as the instants do, and are their own canonical form, exactly
when their years are of four digits.
-/

namespace Mwe

open Str Rfc3339

namespace FactIndex

/-- Which edge of a day a bare date names. -/
inductive DayEdge where
  | start | stop
  deriving DecidableEq, Repr

/-- How the date library reads: `DateTime::parse_from_rfc3339` brought to UTC, and
`NaiveDate::parse_from_str` with `%Y-%m-%d`. -/
structure Reader where
  parseFromRfc3339 : Str → Option Moment
  parseFromStr : Str → Option Day

/-- What is relied on: an instant in UTC of a four-digit year is read back from its text; in RFC 3339
the year is four digits, so no text with a sign is an instant; and a text with a time of day is not
a date. -/
structure Reader.Lawful (reader : Reader) : Prop where
  roundTrip : ∀ x : Moment, x.nanos = 0 → x.FourDigits → reader.parseFromRfc3339 x.render = some x
  unsigned : ∀ x : Moment, ¬ x.FourDigits → reader.parseFromRfc3339 x.render = none
  untimed : ∀ x : Moment, reader.parseFromStr x.render = none

/-- `NaiveDate::and_time`, at a whole second. -/
def atTime (day : Day) (hour minute second : ℕ) (hhour : hour < 24) (hminute : minute < 60)
    (hsecond : second ≤ 60) : Moment :=
  { day with
    hour := hour, minute := minute, second := second, nanos := 0
    hour_lt := hhour, minute_lt := hminute, second_le := hsecond, nanos_lt := zero_lt_nanos }

/-- The instant at an edge of a day. -/
def DayEdge.of (day : Day) : DayEdge → Moment
  | .start => atTime day 0 0 0 (by omega) (by omega) (by omega)
  | .stop => atTime day 23 59 59 (by omega) (by omega) (by omega)

/-- The instant a proposed bound names. -/
def denoted (reader : Reader) (raw : Str) (edge : DayEdge) : Option Moment :=
  let s := trim raw
  if s.isEmpty then none
  else (reader.parseFromRfc3339 s).or ((reader.parseFromStr s).map edge.of)

/-- `bound_from_instant`: an instant as a validity bound, of whole seconds, in UTC, with `Z`. -/
def boundFromMoment (t : Moment) : Str := t.render

/-- A proposed validity bound as one canonical UTC instant. -/
def canonicalBound (reader : Reader) (raw : Str) (edge : DayEdge) : Option Str :=
  (denoted reader raw edge).map boundFromMoment

variable {reader : Reader} {raw raw' : Str} {edge edge' : DayEdge} {x x' : Moment}

/-! ## What a bound promises -/

/-- What two accepted bounds, which name the instants `x` and `x'`, promise: their canonical texts
compare as the seconds of the instants do, each is its own canonical form on either side, and a day
does not end before it starts. -/
structure Embeds (reader : Reader) (raw raw' : Str) (edge edge' : DayEdge) (x x' : Moment) :
    Prop where
  lt_iff : ∀ c c', canonicalBound reader raw edge = some c →
    canonicalBound reader raw' edge' = some c' → (c < c' ↔ x.Before x')
  gt_iff : ∀ c c', canonicalBound reader raw edge = some c →
    canonicalBound reader raw' edge' = some c' → (c' < c ↔ x'.Before x)
  fixed : ∀ c e, canonicalBound reader raw edge = some c → canonicalBound reader c e = some c
  fixed' : ∀ c e, canonicalBound reader raw' edge' = some c → canonicalBound reader c e = some c
  day : ∀ opens closes, canonicalBound reader raw .start = some opens →
    canonicalBound reader raw .stop = some closes → opens ≤ closes

lemma canonicalBound_of_denoted (hx : denoted reader raw edge = some x) :
    canonicalBound reader raw edge = some x.render := by
  rw [canonicalBound, hx]
  rfl

/-- A bound has no whitespace at its ends. -/
lemma trim_render (x : Moment) : trim x.render = x.render := by
  obtain ⟨c, t, hstart, hc⟩ := x.exists_render_eq
  obtain ⟨u, hend⟩ := x.render_eq_concat
  have hfirst : isWhitespace c = false := by
    rcases hc with hc | rfl | rfl
    · rw [Char.isDigit, Bool.and_eq_true, decide_eq_true_eq, decide_eq_true_eq] at hc
      have hlow : 48 ≤ c.toNat := hc.1
      have hhigh : c.toNat ≤ 57 := hc.2
      simp only [isWhitespace, Bool.or_eq_false_iff, Bool.and_eq_false_iff, decide_eq_false_iff_not,
        beq_eq_false_iff_ne]
      omega
    · decide
    · decide
  have hlast : isWhitespace 'Z' = false := by decide
  have htrimStart : trimStart x.render = x.render := by
    rw [trimStart, hstart, List.dropWhile_cons_of_neg (by simp [hfirst])]
  rw [trim, htrimStart, trimEnd, hend, List.rdropWhile_concat_neg _ _ _ (by simp [hlast])]

/-- What a canonical text names. -/
lemma canonicalBound_render (hreader : reader.Lawful) (x : Moment) (e : DayEdge) :
    canonicalBound reader x.render e = some x.render ↔ x.FourDigits := by
  obtain ⟨c, t, hcons, -⟩ := x.exists_render_eq
  have hne : x.render.isEmpty = false := by rw [hcons]; rfl
  simp only [canonicalBound, denoted, trim_render, hne, Bool.false_eq_true, if_false,
    hreader.untimed x, Option.map_none, Option.or_none]
  constructor
  · intro h
    by_contra hx
    rw [hreader.unsigned x hx] at h
    cases h
  · intro hx
    have hread := hreader.roundTrip x.truncate rfl hx
    rw [Moment.render_truncate] at hread
    rw [hread]
    rfl

/-- The bounds of a day, or of an instant, are in order, whatever the year. -/
lemma opens_le_closes {opens closes : Str} (hopens : canonicalBound reader raw .start = some opens)
    (hcloses : canonicalBound reader raw .stop = some closes) : opens ≤ closes := by
  simp only [canonicalBound, denoted] at hopens hcloses
  by_cases hempty : (trim raw).isEmpty = true
  · simp [hempty] at hopens
  rw [if_neg hempty] at hopens hcloses
  cases hparse : reader.parseFromRfc3339 (trim raw) with
  | some x =>
    simp only [hparse, Option.some_or, Option.map_some, Option.some.injEq] at hopens hcloses
    rw [← hopens, ← hcloses]
  | none =>
    cases hday : reader.parseFromStr (trim raw) with
    | none => simp [hparse, hday] at hopens
    | some day =>
      simp only [hparse, hday, Option.none_or, Option.map_some, Option.some.injEq] at hopens hcloses
      rw [← hopens, ← hcloses]
      have hrest : (DayEdge.of day .start).renderRest < (DayEdge.of day .stop).renderRest := by
        rw [Moment.renderRest_lt_iff]
        have hhour : (DayEdge.of day .start).hour < (DayEdge.of day .stop).hour := by
          change 0 < 23
          omega
        exact Or.inr ⟨rfl, Or.inr ⟨rfl, Or.inl hhour⟩⟩
      exact (List.append_left_lt hrest).le

/-- **The condition.**  Bounds embed instants exactly in the years of four digits. -/
theorem embeds_iff (hreader : reader.Lawful) (hx : denoted reader raw edge = some x)
    (hx' : denoted reader raw' edge' = some x') :
    Embeds reader raw raw' edge edge' x x' ↔ x.FourDigits ∧ x'.FourDigits := by
  have hc := canonicalBound_of_denoted hx
  have hc' := canonicalBound_of_denoted hx'
  constructor
  · intro h
    exact ⟨(canonicalBound_render hreader x edge).mp (h.fixed _ edge hc),
      (canonicalBound_render hreader x' edge').mp (h.fixed' _ edge' hc')⟩
  · rintro ⟨hfour, hfour'⟩
    refine ⟨?_, ?_, ?_, ?_, fun _ _ => opens_le_closes⟩
    · intro c c' h h'
      obtain rfl := Option.some.inj (hc.symm.trans h)
      obtain rfl := Option.some.inj (hc'.symm.trans h')
      exact Moment.render_lt_iff hfour hfour'
    · intro c c' h h'
      obtain rfl := Option.some.inj (hc.symm.trans h)
      obtain rfl := Option.some.inj (hc'.symm.trans h')
      exact Moment.render_lt_iff hfour' hfour
    · intro c e h
      obtain rfl := Option.some.inj (hc.symm.trans h)
      exact (canonicalBound_render hreader x e).mpr hfour
    · intro c e h
      obtain rfl := Option.some.inj (hc'.symm.trans h)
      exact (canonicalBound_render hreader x' e).mpr hfour'

/-! ## A year past the last -/

/-- A reader of bounds in UTC and of days, and of one bound with an offset. -/
def plainReader : Reader where
  parseFromRfc3339 s :=
    if s = "9999-12-31T23:59:59-01:00".toList then
      some { year := 10000, month := 1, day := 1, hour := 0, minute := 59, second := 59, nanos := 0
             month_pos := by omega, month_le := by omega, day_pos := by omega, day_le := by decide
             hour_lt := by omega, minute_lt := by omega, second_le := by omega
             nanos_lt := zero_lt_nanos }
    else readMoment s
  parseFromStr s := (readDay s).bind fun p => if p.2.isEmpty then some p.1 else none

lemma plainReader_lawful : plainReader.Lawful := by
  have hother : ∀ x : Moment, x.render ≠ "9999-12-31T23:59:59-01:00".toList := by
    intro x heq
    obtain ⟨t, ht⟩ := x.render_eq_concat
    have hlast := congrArg List.getLast? (ht.symm.trans heq)
    rw [List.getLast?_concat] at hlast
    exact absurd hlast (by decide)
  refine ⟨fun x hnanos hx => ?_, fun x hx => ?_, fun x => ?_⟩
  · simp only [plainReader, if_neg (hother x), readMoment_render hx hnanos]
  · simp only [plainReader, if_neg (hother x), readMoment, readDay_render_of_not hx]
    rfl
  · by_cases hx : x.FourDigits
    · simp only [plainReader, readDay_render hx]
      rfl
    · simp only [plainReader, readDay_render_of_not hx]
      rfl

lemma noon_and_day_embed : ∃ x x', denoted plainReader " 2026-06-27T12:00:00Z".toList .stop = some x ∧
    denoted plainReader "2026-06-27".toList .stop = some x' ∧
      Embeds plainReader " 2026-06-27T12:00:00Z".toList "2026-06-27".toList .stop .stop x x' := by
  have hnoon : (denoted plainReader " 2026-06-27T12:00:00Z".toList .stop).any (fun x =>
      decide (0 ≤ x.year ∧ x.year ≤ 9999)) = true := by decide +kernel
  have hday : (denoted plainReader "2026-06-27".toList .stop).any (fun x =>
      decide (0 ≤ x.year ∧ x.year ≤ 9999)) = true := by decide +kernel
  obtain ⟨x, hx, hfour⟩ := (Option.any_eq_true _ _).mp hnoon
  obtain ⟨x', hx', hfour'⟩ := (Option.any_eq_true _ _).mp hday
  exact ⟨x, x', hx, hx', (embeds_iff plainReader_lawful hx hx').mpr
    ⟨by simpa [Moment.FourDigits] using hfour, by simpa [Moment.FourDigits] using hfour'⟩⟩

/-- The last second of 9999, an hour west, stands before a day of 2026, and its canonical form is
not a bound any more. -/
theorem year_ten_thousand :
    canonicalBound plainReader "9999-12-31T23:59:59-01:00".toList .stop =
        some "+10000-01-01T00:59:59Z".toList ∧
      "+10000-01-01T00:59:59Z".toList < "2026-06-27T23:59:59Z".toList ∧
      canonicalBound plainReader "+10000-01-01T00:59:59Z".toList .stop = none ∧
      ∃ x x', denoted plainReader "9999-12-31T23:59:59-01:00".toList .stop = some x ∧
        denoted plainReader "2026-06-27".toList .stop = some x' ∧
          ¬ Embeds plainReader "9999-12-31T23:59:59-01:00".toList "2026-06-27".toList .stop .stop x x'
    := by
  have hlate : (denoted plainReader "9999-12-31T23:59:59-01:00".toList .stop).any (fun x =>
      decide (x.render = "+10000-01-01T00:59:59Z".toList)) = true := by decide +kernel
  have hday : (denoted plainReader "2026-06-27".toList .stop).isSome = true := by decide +kernel
  have hnone : canonicalBound plainReader "+10000-01-01T00:59:59Z".toList .stop = none := by
    decide +kernel
  obtain ⟨x, hx, hrender⟩ := (Option.any_eq_true _ _).mp hlate
  obtain ⟨x', hx'⟩ := Option.isSome_iff_exists.mp hday
  rw [decide_eq_true_eq] at hrender
  refine ⟨by rw [canonicalBound, hx, Option.map_some, boundFromMoment, hrender],
    by decide +kernel, hnone, x, x', hx, hx', fun hembeds => ?_⟩
  have hfixed := hembeds.fixed _ .stop (canonicalBound_of_denoted hx)
  rw [hrender, hnone] at hfixed
  cases hfixed

end FactIndex

end Mwe
