import MweCore.Lib.Search

/-!
# Strings as character lists with byte offsets

A `Str` is a list of characters.  Its offsets are counted in UTF-8 bytes, as a program that
slices encoded text counts them, so a cut is only possible between two characters:
`splitAtByte` and `slice` answer `none` at every other offset, which is where such a program
would stop with an error.  `find` is the byte offset of the first occurrence of a needle.

The second half collects the whitespace and line operations a text-handling program uses:
trimming, splitting at a character, splitting into lines.
-/

/-- A string, as the list of its characters. -/
abbrev Str := List Char

instance : Coe String Str := ⟨String.toList⟩

namespace Str

open Search

instance lawfulBEq : LawfulBEq Str := inferInstanceAs (LawfulBEq (List Char))

/-! ## Byte offsets -/

/-- The length of a string in bytes. -/
def len (s : Str) : ℕ := String.utf8Len s

@[simp] lemma len_nil : len [] = 0 := rfl

@[simp] lemma len_cons (c : Char) (s : Str) : len (c :: s) = len s + c.utf8Size := rfl

@[simp] lemma len_append (s t : Str) : len (s ++ t) = len s + len t :=
  String.utf8Len_append s t

/-- Cut a string at a byte offset; `none` when the offset is past the end or falls inside a
character. -/
def splitAtByte : ℕ → Str → Option (Str × Str)
  | 0, s => some ([], s)
  | _ + 1, [] => none
  | n + 1, c :: cs =>
    if c.utf8Size ≤ n + 1 then
      (splitAtByte (n + 1 - c.utf8Size) cs).map fun p => (c :: p.1, p.2)
    else none

/-- The slice between two byte offsets; `none` when either is not a place to cut. -/
def slice (s : Str) (i j : ℕ) : Option Str := do
  let (upTo, _) ← splitAtByte j s
  let (_, middle) ← splitAtByte i upTo
  pure middle

/-- The slice from a byte offset on. -/
def sliceFrom (s : Str) (i : ℕ) : Option Str :=
  (splitAtByte i s).map fun p => p.2

/-- The string with another text in the place of the slice between two byte offsets. -/
def splice (s : Str) (i j : ℕ) (t : Str) : Option Str := do
  let before ← slice s 0 i
  let after ← sliceFrom s j
  pure (before ++ t ++ after)

/-- The byte offset of the first occurrence of a needle. -/
def find (n s : Str) : Option ℕ :=
  (splitOnce n s).map fun p => len p.1

/-- A byte offset at which the string can be cut. -/
def IsCharBoundary (s : Str) (i : ℕ) : Prop :=
  ∃ a b, s = a ++ b ∧ len a = i

/-- Cutting at the end of a prefix gives the prefix and the rest. -/
@[simp] lemma splitAtByte_append (a b : Str) : splitAtByte (len a) (a ++ b) = some (a, b) := by
  induction a with
  | nil => simp [splitAtByte]
  | cons c a ih =>
    have hpos : 0 < c.utf8Size := c.utf8Size_pos
    obtain ⟨k, hk⟩ : ∃ k, len (c :: a) = k + 1 := ⟨len (c :: a) - 1, by simp; omega⟩
    have hle : c.utf8Size ≤ k + 1 := by rw [← hk]; simp
    have hrest : k + 1 - c.utf8Size = len a := by rw [← hk]; simp
    rw [hk, List.cons_append, splitAtByte, if_pos hle, hrest, ih]
    rfl

/-- An offset at which `splitAtByte` succeeds is the length of what it cut off. -/
lemma splitAtByte_eq_some_iff {s a b : Str} {i : ℕ} :
    splitAtByte i s = some (a, b) ↔ s = a ++ b ∧ len a = i := by
  constructor
  · intro h
    induction s generalizing i a b with
    | nil =>
      cases i with
      | zero =>
        obtain ⟨rfl, rfl⟩ : a = [] ∧ b = [] := by simpa [splitAtByte, eq_comm] using h
        simp
      | succ n => simp [splitAtByte] at h
    | cons c cs ih =>
      cases i with
      | zero =>
        obtain ⟨rfl, rfl⟩ : a = [] ∧ b = c :: cs := by simpa [splitAtByte, eq_comm] using h
        simp
      | succ n =>
        rw [splitAtByte] at h
        split at h
        · next hle =>
          obtain ⟨⟨a', b'⟩, hcut, heq⟩ := Option.map_eq_some_iff.mp h
          obtain ⟨rfl, rfl⟩ : c :: a' = a ∧ b' = b := by simpa using heq
          obtain ⟨rfl, hlen⟩ := ih hcut
          exact ⟨rfl, by simp [hlen, hle]⟩
        · exact absurd h (by simp)
  · rintro ⟨rfl, rfl⟩
    exact splitAtByte_append a b

/-- The offsets at which a string can be cut are the character boundaries. -/
lemma splitAtByte_isSome_iff {s : Str} {i : ℕ} :
    (splitAtByte i s).isSome ↔ IsCharBoundary s i := by
  constructor
  · intro h
    obtain ⟨⟨a, b⟩, hab⟩ := Option.isSome_iff_exists.mp h
    exact ⟨a, b, splitAtByte_eq_some_iff.mp hab⟩
  · rintro ⟨a, b, hab⟩
    rw [splitAtByte_eq_some_iff.mpr hab]
    rfl

/-- The middle piece of a string is the slice between its offsets. -/
lemma slice_append (a m b : Str) : slice (a ++ m ++ b) (len a) (len a + len m) = some m := by
  have hlen : len a + len m = len (a ++ m) := by simp
  rw [slice, hlen, splitAtByte_append]
  simp

/-- The middle piece of a string is the slice between its offsets, given as equations. -/
lemma slice_eq {s a m b : Str} {i j : ℕ} (h : s = a ++ m ++ b) (hi : i = len a)
    (hj : j = len a + len m) : slice s i j = some m := by
  rw [h, hi, hj, slice_append]

/-- What follows a prefix is the slice from its end on. -/
@[simp] lemma sliceFrom_append (a b : Str) : sliceFrom (a ++ b) (len a) = some b := by
  simp [sliceFrom]

/-- The middle piece of a string is what is spliced out at its offsets. -/
lemma splice_append (a m b t : Str) :
    splice (a ++ m ++ b) (len a) (len a + len m) t = some (a ++ t ++ b) := by
  have hbefore : slice (a ++ m ++ b) 0 (len a) = some a :=
    slice_eq (a := []) (b := m ++ b) (by simp) rfl (by simp)
  have hafter : sliceFrom (a ++ m ++ b) (len a + len m) = some b := by
    rw [← len_append, sliceFrom_append]
  rw [splice, hbefore, hafter]
  rfl

/-- A string has at least as many bytes as characters. -/
lemma length_le_len (s : Str) : s.length ≤ len s := by
  induction s with
  | nil => simp
  | cons c s ih =>
    have hpos : 0 < c.utf8Size := c.utf8Size_pos
    simp only [List.length_cons, len_cons]
    omega

/-- The end of every prefix is a character boundary. -/
lemma isCharBoundary_append (a b : Str) : IsCharBoundary (a ++ b) (len a) :=
  ⟨a, b, rfl, rfl⟩

/-- Pieces of equal byte length at the start of a string are equal. -/
lemma append_inj_of_len {a b a' b' : Str} (h : a ++ b = a' ++ b') (hlen : len a = len a') :
    a = a' ∧ b = b' := by
  have hcut := splitAtByte_append a b
  rw [h, hlen, splitAtByte_append] at hcut
  simpa [eq_comm] using hcut

/-- The specification of `slice`. -/
theorem slice_eq_some_iff {s m : Str} {i j : ℕ} :
    slice s i j = some m ↔ ∃ a b, s = a ++ m ++ b ∧ i = len a ∧ j = len a + len m := by
  constructor
  · intro h
    obtain ⟨⟨upTo, b⟩, hj, hrest⟩ := Option.bind_eq_some_iff.mp h
    obtain ⟨⟨a, m'⟩, hi, hm⟩ := Option.bind_eq_some_iff.mp hrest
    obtain ⟨rfl, rfl⟩ := splitAtByte_eq_some_iff.mp hj
    obtain ⟨rfl, rfl⟩ := splitAtByte_eq_some_iff.mp hi
    obtain rfl : m' = m := by simpa using hm
    exact ⟨a, b, rfl, rfl, by simp⟩
  · rintro ⟨a, b, hs, hi, hj⟩
    exact slice_eq hs hi hj

/-- The empty slice at a character boundary. -/
lemma slice_self {s : Str} {i : ℕ} (h : IsCharBoundary s i) : slice s i i = some [] := by
  obtain ⟨a, b, rfl, rfl⟩ := h
  exact slice_eq (m := []) (b := b) (by simp) rfl (by simp)

/-- Slices that follow one another put together. -/
lemma slice_trans {s m n : Str} {i j k : ℕ} (hij : slice s i j = some m)
    (hjk : slice s j k = some n) : slice s i k = some (m ++ n) := by
  obtain ⟨a, b, hs, rfl, rfl⟩ := slice_eq_some_iff.mp hij
  obtain ⟨a', b', hs', hj, rfl⟩ := slice_eq_some_iff.mp hjk
  obtain ⟨ha, hb⟩ : a ++ m = a' ∧ b = n ++ b' :=
    append_inj_of_len (by rw [← hs, hs']; simp) (by rw [len_append, hj])
  exact slice_eq (b := b') (by rw [hs, hb]; simp) rfl (by rw [← hj, len_append, Nat.add_assoc])

/-- Between two character boundaries in order there is a slice. -/
lemma exists_slice {s : Str} {i j : ℕ} (hi : IsCharBoundary s i) (hj : IsCharBoundary s j)
    (hij : i ≤ j) : ∃ m, slice s i j = some m := by
  obtain ⟨a, b, hs, rfl⟩ := hi
  obtain ⟨c, d, hs', rfl⟩ := hj
  rcases List.append_eq_append_iff.mp (hs.symm.trans hs') with ⟨m, hc, _⟩ | ⟨m, ha, hd⟩
  · exact ⟨m, slice_eq (b := d) (by rw [hs', hc]) rfl (by rw [hc, len_append])⟩
  · have hm : m = [] := by
      have hlen := length_le_len m
      rw [ha, len_append] at hij
      exact List.length_eq_zero_iff.mp (by omega)
    subst hm
    exact ⟨[], slice_eq (b := b) (by simpa using hs) rfl (by simp [ha])⟩

/-! ## Tilings -/

/-- The spans follow one another from `i` to `j`, without gap or overlap. -/
def Tiles : ℕ → ℕ → List (ℕ × ℕ) → Prop
  | i, j, [] => i = j
  | i, j, span :: spans => span.1 = i ∧ span.1 ≤ span.2 ∧ Tiles span.2 j spans

/-- The slices of a tiling at character boundaries put together are the slice they tile. -/
theorem Tiles.slices {s : Str} {i j : ℕ} {spans : List (ℕ × ℕ)} (h : Tiles i j spans)
    (hi : IsCharBoundary s i) (hspans : ∀ p ∈ spans, IsCharBoundary s p.2) :
    ∃ pieces, spans.mapM (fun p => slice s p.1 p.2) = some pieces ∧
      slice s i j = some pieces.flatten := by
  induction spans generalizing i with
  | nil => exact ⟨[], rfl, by rw [← show i = j from h]; exact slice_self hi⟩
  | cons p spans ih =>
    obtain ⟨rfl, hle, hrest⟩ := h
    have hp : IsCharBoundary s p.2 := hspans p List.mem_cons_self
    obtain ⟨m, hm⟩ := exists_slice hi hp hle
    obtain ⟨pieces, hpieces, hflat⟩ := ih hrest hp fun q hq => hspans q (List.mem_cons_of_mem p hq)
    exact ⟨m :: pieces, by simp [hm, hpieces], by simpa using slice_trans hm hflat⟩

/-! ## Whitespace -/

/-- The Unicode `White_Space` property. -/
def isWhitespace (c : Char) : Bool :=
  (9 ≤ c.toNat && c.toNat ≤ 13) || c.toNat == 0x20 || c.toNat == 0x85 || c.toNat == 0xA0 ||
  c.toNat == 0x1680 || (0x2000 ≤ c.toNat && c.toNat ≤ 0x200A) || c.toNat == 0x2028 ||
  c.toNat == 0x2029 || c.toNat == 0x202F || c.toNat == 0x205F || c.toNat == 0x3000

/-- The ASCII whitespace characters: tab, line feed, form feed, carriage return and space. -/
def isAsciiWhitespace (c : Char) : Bool :=
  c == '\t' || c == '\n' || c.toNat == 12 || c == '\r' || c == ' '

/-- Drop the whitespace at the start. -/
def trimStart (s : Str) : Str := s.dropWhile isWhitespace

/-- Drop the whitespace at the end. -/
def trimEnd (s : Str) : Str := s.rdropWhile isWhitespace

/-- Drop the whitespace at both ends. -/
def trim (s : Str) : Str := trimEnd (trimStart s)

/-- Trimming twice is trimming once. -/
@[simp] lemma trim_trim (s : Str) : trim (trim s) = trim s := by
  have hstart : trimStart (trim s) = trim s := by
    unfold trimStart
    rw [List.dropWhile_eq_self_iff]
    intro hpos
    -- the first character of the trimmed string is the first one after the dropped ones
    obtain ⟨t, ht⟩ := List.rdropWhile_prefix (p := isWhitespace) (l := trimStart s)
    change trim s ++ t = trimStart s at ht
    have hne : trimStart s ≠ [] := by
      rw [← ht]
      exact List.append_ne_nil_of_left_ne_nil (List.length_pos_iff.mp hpos) t
    have hhead := List.head_dropWhile_not isWhitespace hne
    have hget : (trim s)[0] = (trimStart s).head hne := by
      simp only [List.head_eq_getElem, ← ht]
      exact (List.getElem_append_left hpos).symm
    rw [hget, Bool.not_eq_true]
    exact hhead
  rw [trim, hstart]
  exact List.rdropWhile_idempotent isWhitespace (trimStart s)

/-- The nonempty pieces between runs of ASCII whitespace. -/
def splitAsciiWhitespace (s : Str) : List Str :=
  (s.splitOnP isAsciiWhitespace).filter fun w => !w.isEmpty

/-- Words joined by single spaces are the pieces between them. -/
lemma splitAsciiWhitespace_intercalate {ws : List Str} (hne : ∀ w ∈ ws, w ≠ [])
    (hws : ∀ w ∈ ws, ∀ c ∈ w, isAsciiWhitespace c = false) :
    splitAsciiWhitespace (List.intercalate [' '] ws) = ws := by
  have hspace : isAsciiWhitespace ' ' = true := by decide
  unfold splitAsciiWhitespace
  induction ws with
  | nil => simp [List.intercalate]
  | cons w ws ih =>
    have hw := hws w List.mem_cons_self
    have hkeep : (!w.isEmpty) = true := by simpa using hne w List.mem_cons_self
    have hrest := ih (fun x hx => hne x (List.mem_cons_of_mem w hx))
      fun x hx => hws x (List.mem_cons_of_mem w hx)
    cases ws with
    | nil => simp [List.intercalate, List.splitOnP_eq_singleton hw, hkeep]
    | cons x ws =>
      have hjoin : List.intercalate [' '] (w :: x :: ws) =
          w ++ ' ' :: List.intercalate [' '] (x :: ws) := by simp [List.intercalate]
      rw [hjoin, List.splitOnP_append_cons_of_forall_mem hw ' ' hspace, List.filter_cons,
        if_pos hkeep, hrest]

/-! ## Lines and prefixes -/

/-- The pieces that end with each `c`, the terminator included, and a last piece without one. -/
def splitInclusive (c : Char) : Str → List Str
  | [] => []
  | x :: xs =>
    if x = c then [x] :: splitInclusive c xs
    else
      match splitInclusive c xs with
      | [] => [[x]]
      | l :: ls => (x :: l) :: ls

/-- The rest of a string after a given prefix. -/
def stripPrefix (p s : Str) : Option Str :=
  if p.isPrefixOf s then some (s.drop p.length) else none

/-- What stands before a given suffix. -/
def stripSuffix (p s : Str) : Option Str :=
  if p.isSuffixOf s then some (s.take (s.length - p.length)) else none

/-- The lines of a text, without their terminators (`\n`, or `\r\n`). -/
def lines (s : Str) : List Str :=
  (splitInclusive '\n' s).map fun line =>
    match stripSuffix ['\n'] line with
    | none => line
    | some body => (stripSuffix ['\r'] body).getD body

/-- Whether the needle occurs in the string. -/
def contains (n s : Str) : Bool := (splitOnce n s).isSome

/-- Put the lower-case form in place of every ASCII capital. -/
def toAsciiLowercase (s : Str) : Str := s.map Char.toLower

/-- A string in quotes with its quotes, backslashes and control characters escaped. -/
def debug (s : Str) : Str :=
  let escape (c : Char) : Str :=
    if c = '"' then ['\\', '"'] else if c = '\\' then ['\\', '\\']
    else if c = '\n' then ['\\', 'n'] else if c = '\r' then ['\\', 'r']
    else if c = '\t' then ['\\', 't'] else if c.toNat = 0 then ['\\', '0']
    else if c.toNat < 0x20 ∨ c.toNat = 0x7F then
      ['\\', 'u', '\x7b'] ++ Nat.toDigits 16 c.toNat ++ ['\x7d']
    else [c]
  ['"'] ++ s.flatMap escape ++ ['"']

/-- The pieces `splitInclusive` makes put the string back together. -/
lemma splitInclusive_flatten (c : Char) (s : Str) : (splitInclusive c s).flatten = s := by
  induction s with
  | nil => rfl
  | cons x xs ih =>
    rw [splitInclusive]
    split
    · simp [ih]
    · cases hrest : splitInclusive c xs with
      | nil => simpa [hrest] using ih
      | cons l ls => simpa [hrest] using ih

/-- A stripped prefix can be put back. -/
lemma stripPrefix_eq_some_iff {p s t : Str} : stripPrefix p s = some t ↔ s = p ++ t := by
  unfold stripPrefix
  constructor
  · intro h
    split at h
    · next hpre =>
      obtain ⟨u, rfl⟩ := List.isPrefixOf_iff_prefix.mp hpre
      simpa using h
    · exact absurd h (by simp)
  · rintro rfl
    rw [if_pos (List.isPrefixOf_iff_prefix.mpr ⟨t, rfl⟩)]
    simp

end Str
