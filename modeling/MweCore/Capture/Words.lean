import MweCore.Capture.Fold
import MweCore.Compiler.Markers
import MweCore.Compiler.Restating

/-!
# What makes two claims the same words

Two claims are compared by the six-character windows of their texts, without the embeds: the score
is the share of windows they have in common.  An entry of a list is too short for that, and is
compared by its name, which is the entry without the values it was given.

Scores are floating-point numbers.  The code uses four literals and the quotient of two counts, and
what it relies on is that a quotient of counts is at most one: `Floats` is any linear order with
these.
-/

namespace Mwe

open Str Search

/-! ## Texts without their embeds -/

/-- What opens an embed. -/
def embedOpen : Str := openMark ++ "embed=".toList

/-- Take the embeds inside regions out of what is left of a text. -/
def cleanFrom : ℕ → Str → Str
  | 0, rest => rest
  | fuel + 1, rest =>
    match splitOnce embedOpen rest with
    | none => rest
    | some (before, tail) =>
      match splitOnce closeMark tail with
      | none => rest
      | some (raw, after) =>
        if '\n' ∉ raw ∧ (CatalogId.parse raw).isOk then before ++ cleanFrom fuel after
        else before ++ embedOpen ++ raw ++ closeMark ++ cleanFrom fuel after

/-- A text without the markers of its embeds. -/
def stripEmbedMarkers (text : Str) : Str :=
  let (out, last) := (parseEvents text).foldl
    (fun (out, last) ev =>
      match ev with
      | .embed start stop _ => (out ++ (slice text last start).getD [], stop)
      | _ => (out, last)) ([], 0)
  let out := out ++ (sliceFrom text last).getD []
  if contains embedOpen out then cleanFrom (out.length + 1) out else out

/-! ## Scores -/

/-- The floating-point numbers of a score. -/
structure Floats (S : Type*) [LinearOrder S] where
  /-- `0.0` -/
  zero : S
  /-- `1.0` -/
  one : S
  /-- `DEFAULT_DEDUP_THRESHOLD` -/
  defaultDedupThreshold : S
  /-- `1.01`, above every score -/
  off : S
  /-- `u32_to_f32_lossy(n) / u32_to_f32_lossy(m)` -/
  div : ℕ → ℕ → S
  zero_le_one : zero ≤ one
  zero_le_default : zero ≤ defaultDedupThreshold
  default_le_one : defaultDedupThreshold ≤ one
  one_lt_off : one < off
  div_le_one : ∀ {n m : ℕ}, n ≤ m → div n m ≤ one
  div_self : ∀ {n : ℕ}, n ≠ 0 → div n n = one

/-- Scores that are not rounded. -/
def exactFloats : Floats ℚ where
  zero := 0
  one := 1
  defaultDedupThreshold := 17 / 20
  off := 101 / 100
  div n m := n / m
  zero_le_one := by norm_num
  zero_le_default := by norm_num
  default_le_one := by norm_num
  one_lt_off := by norm_num
  div_le_one := by
    intro n m h
    exact div_le_one_of_le₀ (by exact_mod_cast h) (Nat.cast_nonneg m)
  div_self := by
    intro n hn
    exact div_self (Nat.cast_ne_zero.mpr hn)

/-- The case mapping of ASCII. -/
def asciiCasing : Casing where
  toUppercase c := [c.toUpper]
  toLowercase := toAsciiLowercase

namespace Recall

/-- `char::is_control` -/
def isControl (c : Char) : Bool := c.toNat < 0x20 || (0x7f ≤ c.toNat && c.toNat < 0xa0)

/-- A text in lower case, every run of blanks a single space, and none at the end. -/
def normalise (casing : Casing) (s : Str) : Str :=
  let out := (casing.toLowercase s).foldl
    (fun out c =>
      if isControl c || isWhitespace c then
        if out.getLast? = some ' ' then out else out ++ [' ']
      else out ++ [c]) []
  if out.getLast? = some ' ' then out.dropLast else out

/-- The windows of `n` characters of a text; a short text is one window, padded. -/
def ngrams (casing : Casing) (text : Str) (n : ℕ) : Finset Str :=
  let chars := normalise casing text
  if chars.isEmpty then ∅
  else if chars.length < n then {chars ++ List.replicate (n - chars.length) '\x00'}
  else (windows n chars).toFinset

/-- Size of the windows. -/
def defaultNgram : ℕ := 6

variable {S : Type*} [LinearOrder S]

/-- The share of windows two texts have in common. -/
def jaccardSets (floats : Floats S) (a b : Finset Str) : S :=
  if a = ∅ ∧ b = ∅ then floats.one
  else if a = ∅ ∨ b = ∅ then floats.zero
  else
    let inter := (a ∩ b).card
    let union := a.card + b.card - inter
    if union = 0 then floats.one else floats.div inter union

/-- How near a claim's words are to a fact's. -/
def score (floats : Floats S) (casing : Casing) (body text : Str) : S :=
  jaccardSets floats (ngrams casing (stripEmbedMarkers body) defaultNgram)
    (ngrams casing (stripEmbedMarkers text) defaultNgram)

variable {floats : Floats S} {casing : Casing}

lemma jaccardSets_le_one (a b : Finset Str) : jaccardSets floats a b ≤ floats.one := by
  unfold jaccardSets
  split_ifs with hboth hone
  · exact le_rfl
  · exact floats.zero_le_one
  · dsimp only
    split_ifs
    · exact le_rfl
    · have hleft : (a ∩ b).card ≤ a.card := Finset.card_le_card Finset.inter_subset_left
      have hright : (a ∩ b).card ≤ b.card := Finset.card_le_card Finset.inter_subset_right
      exact floats.div_le_one (by omega)

/-- No two texts are nearer than one text to itself. -/
lemma score_le_one (body text : Str) : score floats casing body text ≤ floats.one :=
  jaccardSets_le_one _ _

lemma jaccardSets_self (a : Finset Str) : jaccardSets floats a a = floats.one := by
  unfold jaccardSets
  by_cases ha : a = ∅
  · simp [ha]
  · have hcard : a.card ≠ 0 := by simpa using ha
    simp [ha, floats.div_self hcard]

/-- Texts that differ in their embeds alone are as near as can be. -/
lemma score_of_strip_eq {body text : Str}
    (h : stripEmbedMarkers body = stripEmbedMarkers text) :
    score floats casing body text = floats.one := by
  rw [score, h, jaccardSets_self]

end Recall

/-! ## The entries of a list -/

namespace Capture

/-- The words between the blanks of a text. -/
def splitWhitespace (s : Str) : List Str := (s.splitOnP isWhitespace).filter fun w => !w.isEmpty

/-- Punctuation an entry may end in. -/
def isEntryMark (c : Char) : Bool := ".,;:!?".toList.elem c

/-- A text without the punctuation around it. -/
def trimEntryMarks (s : Str) : Str := (s.dropWhile isEntryMark).rdropWhile isEntryMark

/-- An entry as two entries are compared. -/
def normalisedEntry (casing : Casing) (body : Str) : Str :=
  trimEntryMarks (List.intercalate [' '] (splitWhitespace (casing.toLowercase body)))

/-- Whether a word begins with a digit. -/
def startsWithDigit (w : Str) : Bool := w.head?.any isAsciiDigit

/-- The name of an entry: the words before its first value. -/
def listEntryName (casing : Casing) (body : Str) : Str :=
  let words := splitWhitespace (normalisedEntry casing ((body.splitOn '·').headD body))
  let cut := ((words.findIdx? startsWithDigit).filter fun first => 0 < first).getD words.length
  trimEntryMarks (List.intercalate [' '] (words.take cut))

/-- Whether an entry says more than its name. -/
def listEntryCarriesValues (casing : Casing) (body : Str) : Bool :=
  let whole := normalisedEntry casing body
  !whole.isEmpty && whole != listEntryName casing body

end Capture

end Mwe
