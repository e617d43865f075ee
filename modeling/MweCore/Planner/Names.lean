import Mathlib
import MweCore.Lib.Str

/-!
# Page names

A page is named by whoever files a claim, and the plan keys its pages by `slugify` of the name:
lower-case letters, digits and single underscores, none at either end.  A key is its own key
(`slugify_slugify`), so a name may be brought into this form as often as the code likes.

Unicode case mapping is a parameter (`Casing`): nothing here depends on it.
-/

namespace Mwe

open Str

/-- The case mapping of the string library. -/
structure Casing where
  /-- `char::to_uppercase` -/
  toUppercase : Char → Str
  /-- `str::to_lowercase` -/
  toLowercase : Str → Str

/-! ## The pages the engine owns -/

/-- The identity card of a wiki. -/
def profileFilename : Str := "@profile.md".toList

/-- The bare words no coined page may take. -/
def reservedPageStems : List Str :=
  ["rules".toList, "projects".toList, "project_diary".toList, "projects_diary".toList,
    "profile".toList]

/-- Whether a page stem is the engine's. -/
def isReservedPageStem (stem : Str) : Bool :=
  stem.head? == some '@' || reservedPageStems.contains stem

namespace Planner

/-! ## The plan key of a name -/

/-- The characters of a slug, before the underscores at the ends are cut. -/
def slugRun : Bool → Str → Str
  | _, [] => []
  | prevUs, c :: s =>
    if c.isAlphanum then c.toLower :: slugRun false s
    else if prevUs then slugRun true s
    else '_' :: slugRun true s

/-- Drop a character from both ends. -/
def trimMatches (c : Char) (s : Str) : Str := (s.dropWhile (· == c)).rdropWhile (· == c)

/-- The plan key of a name: lower-case letters, digits and single underscores. -/
def slugify (s : Str) : Str := trimMatches '_' (slugRun false s)

/-- The name of a page file without its ending. -/
def stemOf (page : Str) : Str := (stripSuffix ".md".toList page).getD page

/-- The page name of a name somebody made up, unless there is nothing in it to name a page. -/
def canonicalPagePath (raw : Str) : Option Str :=
  let stem := stemOf (trim raw)
  if (stem.splitOnP fun c => c == '/' || c == '\\').any fun seg =>
      trim seg == ".".toList || trim seg == "..".toList then
    none
  else
    let slug := slugify stem
    if slug.isEmpty then none else some (slug ++ ".md".toList)

/-- A name with its first letter in upper case. -/
def capitalize (casing : Casing) : Str → Str
  | [] => []
  | first :: rest => casing.toUppercase first ++ rest

/-- A title made of a slug. -/
def titleOf (casing : Casing) (slug : Str) : Str :=
  capitalize casing (slug.map fun c => if c = '_' then ' ' else c)

/-- The plan key of a page of a wiki; the card is keyed by its wiki. -/
def planSlugForPage (wikiId page : Str) : Str :=
  let stem := stemOf page
  if stem = "@profile".toList || stem = "profile".toList then slugify wikiId else slugify stem

/-- Whether a page name means the identity card. -/
def namesTheCard (page : Str) : Bool :=
  stemOf page == "@profile".toList || stemOf page == "profile".toList

/-! ## A key is its own key -/

/-- The characters a slug is made of. -/
def isSlugRunChar (c : Char) : Prop := c = '_' ∨ (c.isAlphanum = true ∧ c.toLower = c)

/-- No two underscores in a row. -/
def Spaced (a b : Char) : Prop := a = '_' → b ≠ '_'

/-- A capital is not a digit. -/
lemma isUpper_eq_false_of_isDigit {c : Char} (h : c.isDigit = true) : c.isUpper = false := by
  simp only [Char.isDigit, Char.isUpper, Bool.and_eq_true, decide_eq_true_eq, ge_iff_le,
    UInt32.le_iff_toNat_le, decide_eq_false_iff_not] at h ⊢
  have hnine : '9'.val.toNat = 57 := rfl
  have hupperA : 'A'.val.toNat = 65 := rfl
  omega

lemma isAlphanum_toLower {c : Char} (h : c.isAlphanum = true) :
    c.toLower.isAlphanum = true := by
  simp only [Char.isAlphanum, Bool.or_eq_true] at h ⊢
  obtain halpha | hdigit := h
  · exact .inl ((Char.isAlpha_toLower_eq_isAlpha c).trans halpha)
  · rw [Char.toLower_eq_of_not_isUpper (by simp [isUpper_eq_false_of_isDigit hdigit])]
    exact .inr hdigit

lemma ne_underscore_of_isAlphanum {c : Char} (h : c.isAlphanum = true) : c ≠ '_' := by
  rintro rfl
  exact absurd h (by decide)

lemma isSlugRunChar_of_mem_slugRun {s : Str} {prevUs : Bool} {c : Char}
    (h : c ∈ slugRun prevUs s) : isSlugRunChar c := by
  induction s generalizing prevUs with
  | nil => simp [slugRun] at h
  | cons a s ih =>
    simp only [slugRun] at h
    split at h
    · next halnum =>
      obtain rfl | h := List.mem_cons.mp h
      · exact .inr ⟨isAlphanum_toLower halnum, Char.toLower_toLower_eq_toLower a⟩
      · exact ih h
    · split at h
      · exact ih h
      · obtain rfl | h := List.mem_cons.mp h
        · exact .inl rfl
        · exact ih h

/-- The run never has two underscores in a row, not even after one that stands before it. -/
lemma isChain_slugRun (prevUs : Bool) (s : Str) :
    (if prevUs then '_' :: slugRun prevUs s else slugRun prevUs s).IsChain Spaced := by
  induction s generalizing prevUs with
  | nil => cases prevUs <;> simp [slugRun]
  | cons c s ih =>
    by_cases halnum : c.isAlphanum
    · have hc := ne_underscore_of_isAlphanum (isAlphanum_toLower halnum)
      have htail : (c.toLower :: slugRun false s).IsChain Spaced :=
        List.isChain_cons.mpr ⟨fun _ _ h => absurd h hc, by simpa using ih false⟩
      cases prevUs with
      | false => simpa [slugRun, halnum] using htail
      | true =>
        simp only [slugRun, halnum, if_true]
        exact List.isChain_cons_cons.mpr ⟨fun _ => hc, htail⟩
    · cases prevUs with
      | false => simpa [slugRun, halnum] using ih true
      | true => simpa [slugRun, halnum] using ih true

/-- The run changes nothing in what is a run already. -/
lemma slugRun_eq_self {t : Str} {prevUs : Bool} (hchars : ∀ c ∈ t, isSlugRunChar c)
    (hchain : (if prevUs then '_' :: t else t).IsChain Spaced) : slugRun prevUs t = t := by
  induction t generalizing prevUs with
  | nil => rfl
  | cons c t ih =>
    have hrest : (c :: t).IsChain Spaced := by
      cases prevUs
      · simpa using hchain
      · exact (List.isChain_cons_cons.mp (by simpa using hchain)).2
    have htail : t.IsChain Spaced := (List.isChain_cons.mp hrest).2
    obtain rfl | ⟨halnum, hlower⟩ := hchars c List.mem_cons_self
    · have hfirst : prevUs = false := by
        cases prevUs
        · rfl
        · have hpair : ('_' :: '_' :: t).IsChain Spaced := by simpa using hchain
          exact absurd rfl ((List.isChain_cons_cons.mp hpair).1 rfl)
      have hih := ih (fun c hc => hchars c (List.mem_cons_of_mem _ hc))
        (show (if true then '_' :: t else t).IsChain Spaced from hrest)
      rw [slugRun, if_neg (by decide), hfirst, if_neg (by simp), hih]
    · have hih := ih (fun c hc => hchars c (List.mem_cons_of_mem _ hc))
        (show (if false then '_' :: t else t).IsChain Spaced from htail)
      rw [slugRun, if_pos halnum, hlower, hih]

/-- Cutting both ends leaves a part of the string. -/
lemma trimMatches_within (c : Char) (s : Str) : trimMatches c s <:+: s :=
  (List.rdropWhile_prefix _ _).isInfix.trans (List.dropWhile_suffix _).isInfix

/-- What has been cut has nothing left to cut. -/
lemma trimMatches_trimMatches (c : Char) (s : Str) :
    trimMatches c (trimMatches c s) = trimMatches c s := by
  have hend : (trimMatches c s).rdropWhile (· == c) = trimMatches c s :=
    List.rdropWhile_idempotent _ _
  have hstart : (trimMatches c s).dropWhile (· == c) = trimMatches c s := by
    refine List.dropWhile_eq_self_iff.mpr fun hpos => ?_
    have hstem : trimMatches c s <+: s.dropWhile (· == c) := List.rdropWhile_prefix _ _
    have hne : s.dropWhile (· == c) ≠ [] := by
      intro h
      rw [h, List.prefix_nil] at hstem
      simp [hstem] at hpos
    rw [hstem.getElem hpos, ← List.head_eq_getElem hne]
    simpa using List.head_dropWhile_not (· == c) hne
  rw [trimMatches, hstart, hend]

/-- A key is its own key. -/
@[simp] theorem slugify_slugify (s : Str) : slugify (slugify s) = slugify s := by
  have hwithin : slugify s <:+: slugRun false s := trimMatches_within '_' _
  have hspaced : (slugRun false s).IsChain Spaced := isChain_slugRun false s
  have hchain : (slugify s).IsChain Spaced := List.IsChain.infix hspaced hwithin
  have hrun : slugRun false (slugify s) = slugify s :=
    slugRun_eq_self (fun c hc => isSlugRunChar_of_mem_slugRun (hwithin.subset hc)) hchain
  rw [slugify, hrun]
  exact trimMatches_trimMatches '_' _

end Planner

end Mwe
