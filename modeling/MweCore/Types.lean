import MweCore.Lib.Str

/-!
# Canonical shared types and identifiers

`Principal` is who an access list can name, `Acl` the four terms of a region's permission,
`RegionAttrs` what a region's opening marker carries.  `FactId`, `CatalogId`, `WikiSlug` and
`WikiId` are strings that passed their parser: each is a structure whose second field says so,
and its `parse` is the only way to build one.

The display form of a principal is what is stored and compared everywhere, so the two facts
about it that everything rests on are proved here: it is injective
(`Principal.display_injective`), and reading it back gives the principal again whenever its
identifier is not empty (`Principal.fromStr_display`).
-/

namespace Mwe

/-! ## Principals -/

/-- A principal an ACL marker can name.  The builtin group `global` has universal membership. -/
inductive Principal where
  | user (id : Str)
  | group (id : Str)
  deriving DecidableEq, Repr

/-- Reason a string did not parse as a `Principal`. -/
inductive PrincipalParseError where
  | empty
  | missingPrefix (s : Str)
  | emptyId (s : Str)
  deriving DecidableEq, Repr

/-- The text of a parse error. -/
def PrincipalParseError.display : PrincipalParseError → Str
  | .empty => "empty principal"
  | .missingPrefix s => "missing user:/group: prefix in ".toList ++ Str.debug s
  | .emptyId s => "empty identifier after prefix in ".toList ++ Str.debug s

namespace Principal

/-- The builtin universal group. -/
def global : Principal := .group "global".toList

/-- Whether this principal is the builtin universal group. -/
def isGlobal : Principal → Bool
  | .group id => id == "global".toList
  | .user _ => false

/-- Read a principal from its wire form. -/
def fromStr (s : Str) : Except PrincipalParseError Principal :=
  if s.isEmpty then .error .empty
  else if s = "global".toList then .ok global
  else
    match Str.stripPrefix "user:".toList s with
    | some id => if id.isEmpty then .error (.emptyId s) else .ok (.user id)
    | none =>
      match Str.stripPrefix "group:".toList s with
      | some id => if id.isEmpty then .error (.emptyId s) else .ok (.group id)
      | none => .error (.missingPrefix s)

/-- The wire form of a principal; the builtin group keeps its bare spelling. -/
def display : Principal → Str
  | .user id => "user:".toList ++ id
  | .group id => if id = "global".toList then "global".toList else "group:".toList ++ id

/-- The identifier after the prefix. -/
def id : Principal → Str
  | .user id => id
  | .group id => id

@[simp] lemma display_user (id : Str) : (user id).display = "user:".toList ++ id := rfl

@[simp] lemma display_global : global.display = "global".toList := rfl

lemma display_group_of_ne {id : Str} (h : id ≠ "global".toList) :
    (group id).display = "group:".toList ++ id :=
  if_neg h

/-- Two principals with the same wire form are the same principal. -/
theorem display_injective : Function.Injective display := by
  intro p q h
  cases p with
  | user i =>
    cases q with
    | user j => simpa using h
    | group j =>
      by_cases hj : j = "global".toList
      · subst hj
        simp [display] at h
      · rw [display_group_of_ne hj] at h
        simp at h
  | group i =>
    by_cases hi : i = "global".toList
    · subst hi
      cases q with
      | user j => simp [display] at h
      | group j =>
        by_cases hj : j = "global".toList
        · rw [hj]
        · rw [display_group_of_ne hj] at h
          simp [display] at h
    · cases q with
      | user j =>
        rw [display_group_of_ne hi] at h
        simp at h
      | group j =>
        by_cases hj : j = "global".toList
        · rw [display_group_of_ne hi, hj] at h
          simp [display] at h
        · rw [display_group_of_ne hi, display_group_of_ne hj] at h
          simpa using h

/-- Reading the wire form of a principal with a nonempty identifier gives it back. -/
theorem fromStr_display {p : Principal} (h : p.id ≠ []) : fromStr p.display = .ok p := by
  cases p with
  | user i =>
    have hne : i.isEmpty = false := by simpa [Principal.id] using h
    have hstrip : Str.stripPrefix "user:".toList ("user:".toList ++ i) = some i :=
      Str.stripPrefix_eq_some_iff.mpr rfl
    rw [display_user, fromStr, if_neg (by simp), if_neg (by simp), hstrip]
    simp [hne]
  | group i =>
    by_cases hi : i = "global".toList
    · subst hi
      rfl
    · have hne : i.isEmpty = false := by simpa [Principal.id] using h
      have huser : Str.stripPrefix "user:".toList ("group:".toList ++ i) = none := by
        simp [Str.stripPrefix]
      have hstrip : Str.stripPrefix "group:".toList ("group:".toList ++ i) = some i :=
        Str.stripPrefix_eq_some_iff.mpr rfl
      rw [display_group_of_ne hi, fromStr, if_neg (by simp), if_neg (by simp), huser, hstrip]
      simp [hne]

end Principal

/-! ## Access lists -/

/-- Region ACL: the subject, the audience, and the principals the region must not reach. -/
structure Acl where
  subject : Option Principal := none
  allow : List Principal := []
  excluded : List Principal := []
  deriving DecidableEq, Repr

/-! ## Identifiers -/

/-- `[0-9a-f]` -/
def isAsciiLowerHex (c : Char) : Bool :=
  ('0' ≤ c && c ≤ '9') || ('a' ≤ c && c ≤ 'f')

/-- `[0-9]` -/
def isAsciiDigit (c : Char) : Bool := '0' ≤ c && c ≤ '9'

/-- `[a-z]` -/
def isAsciiLowercase (c : Char) : Bool := 'a' ≤ c && c ≤ 'z'

/-- The rules of a fact id: 36 characters, dashes at 8, 13, 18 and 23 and lower-case hex digits
elsewhere, version nibble 7 and variant nibble in `89ab`. -/
def isFactId (s : Str) : Bool :=
  s.length == 36 &&
  (s.zipIdx.all fun (c, i) =>
    if i ∈ [8, 13, 18, 23] then c == '-' else isAsciiLowerHex c) &&
  s[14]? == some '7' &&
  (s[19]?.any fun c => c ∈ ['8', '9', 'a', 'b'])

/-- A fact id in canonical UUIDv7 lower-case form. -/
structure FactId where
  val : Str
  wellFormed : isFactId val = true
  deriving DecidableEq

/-! Some ids that examples use. -/

lemma isFactId_ab : isFactId "018f1234-5678-7abc-9def-0123456789ab".toList = true := by decide

lemma isFactId_ac : isFactId "018f1234-5678-7abc-9def-0123456789ac".toList = true := by decide

lemma isFactId_ad : isFactId "018f1234-5678-7abc-9def-0123456789ad".toList = true := by decide

lemma isFactId_cd : isFactId "018f1234-5678-7abc-9def-0123456789cd".toList = true := by decide

lemma isFactId_ce : isFactId "018f1234-5678-7abc-9def-0123456789ce".toList = true := by decide

lemma isFactId_one : isFactId "01890000-0000-7000-8000-000000000001".toList = true := by decide

/-- Reason a string did not parse as a `FactId`. -/
inductive FactIdParseError where
  | invalidFormat (s : Str)
  deriving DecidableEq, Repr

/-- The text of a parse error. -/
def FactIdParseError.display : FactIdParseError → Str
  | .invalidFormat s => "invalid fact_id ".toList ++ Str.debug s ++
      ": expected UUIDv7 (lowercase, hyphenated)".toList

/-- Parse a UUIDv7-formatted fact id. -/
def FactId.parse (s : Str) : Except FactIdParseError FactId :=
  if h : isFactId s = true then .ok ⟨s, h⟩ else .error (.invalidFormat s)

/-- A fact id parses back from its own string. -/
@[simp] lemma FactId.parse_val (f : FactId) : FactId.parse f.val = .ok f := by
  rw [FactId.parse, dif_pos f.wellFormed]

/-- A fact id is its text. -/
lemma FactId.val_injective : Function.Injective FactId.val := by
  rintro ⟨a, ha⟩ ⟨b, hb⟩ rfl
  rfl

/-- The characters of a fact id. -/
lemma FactId.isAsciiLowerHex_or_dash (f : FactId) {c : Char} (h : c ∈ f.val) :
    isAsciiLowerHex c = true ∨ c = '-' := by
  have hwf := f.wellFormed
  simp only [isFactId, Bool.and_eq_true, List.all_eq_true] at hwf
  obtain ⟨i, hi, rfl⟩ := List.mem_iff_getElem.mp h
  have hall := hwf.1.1.2 (f.val[i], i) (List.mk_mem_zipIdx_iff_getElem?.mpr (by simp [hi]))
  dsimp only at hall
  split at hall
  · exact .inr (by simpa using hall)
  · exact .inl hall

/-- `splitn(n + 1, c)`: at most `n` cuts, the last piece keeps the rest. -/
def splitN (c : Char) : ℕ → Str → List Str
  | 0, s => [s]
  | n + 1, s =>
    match Search.splitOnce [c] s with
    | none => [s]
    | some (a, b) => a :: splitN c n b

/-- The rules of a catalogue id: `c-YYYY-MM-DD-<kind>-NNN.<ext>`. -/
def isCatalogId (s : Str) : Bool :=
  match Str.stripPrefix "c-".toList s with
  | none => false
  | some rest =>
    match splitN '-' 4 rest with
    | [year, month, day, kind, last] =>
      let validDate := year.length == 4 && month.length == 2 && day.length == 2 &&
        year.all isAsciiDigit && month.all isAsciiDigit && day.all isAsciiDigit
      let validKind := !kind.isEmpty && kind.all isAsciiLowercase
      -- the extension is what follows the last dot
      match Search.splitOnce ['.'] last.reverse with
      | none => false
      | some (extRev, nnnRev) =>
        let validNnn := !nnnRev.isEmpty && nnnRev.all isAsciiDigit
        let validExt := !extRev.isEmpty && extRev.all fun c => isAsciiLowercase c || isAsciiDigit c
        validDate && validKind && validNnn && validExt
    | _ => false

/-- A character of a string is a separator or stands in one of the pieces `splitN` makes. -/
lemma mem_splitN {c x : Char} {n : ℕ} {s : Str} (hx : x ∈ s) :
    x = c ∨ ∃ piece ∈ splitN c n s, x ∈ piece := by
  induction n generalizing s with
  | zero => exact .inr ⟨s, by simp [splitN], hx⟩
  | succ n ih =>
    unfold splitN
    cases hcut : Search.splitOnce [c] s with
    | none => exact .inr ⟨s, by simp, hx⟩
    | some p =>
      obtain ⟨a, b⟩ := p
      rw [← Search.splitOnce_append (by simp) hcut] at hx
      simp only [List.mem_append, List.mem_singleton] at hx
      rcases hx with (hx | rfl) | hx
      · exact .inr ⟨a, by simp, hx⟩
      · exact .inl rfl
      · rcases ih hx with rfl | ⟨piece, hpiece, hmem⟩
        · exact .inl rfl
        · exact .inr ⟨piece, List.mem_cons_of_mem a hpiece, hmem⟩

/-- The characters of a catalogue id. -/
def isCatalogChar (c : Char) : Bool := isAsciiLowercase c || isAsciiDigit c || c == '-' || c == '.'

/-- A catalogue id has no other characters. -/
lemma isCatalogChar_of_isCatalogId {s : Str} (h : isCatalogId s = true) :
    ∀ x ∈ s, isCatalogChar x = true := by
  intro x hx
  unfold isCatalogId at h
  split at h
  · exact absurd h (by simp)
  · next rest hrest =>
    rw [Str.stripPrefix_eq_some_iff.mp hrest] at hx
    split at h
    · next year month day kind last hpieces =>
      dsimp only at h
      split at h
      · exact absurd h (by simp)
      · next extRev nnnRev hcut =>
        simp only [Bool.and_eq_true, List.all_eq_true] at h
        obtain ⟨⟨⟨⟨⟨⟨-, hyear⟩, hmonth⟩, hday⟩, -, hkind⟩, -, hnnn⟩, -, hext⟩ := h
        have hlast : ∀ y ∈ last, isCatalogChar y = true := by
          intro y hy
          rw [← List.mem_reverse, ← Search.splitOnce_append (by simp) hcut] at hy
          simp only [List.mem_append, List.mem_singleton] at hy
          rcases hy with (hy | rfl) | hy
          · have := hext y hy
            simp_all [isCatalogChar]
          · decide
          · simp [isCatalogChar, hnnn y hy]
        have hdash : "c-".toList = ['c', '-'] := rfl
        rw [hdash] at hx
        rcases List.mem_append.mp hx with hx | hx
        · simp only [List.mem_cons, List.not_mem_nil, or_false] at hx
          rcases hx with rfl | rfl <;> decide
        · rcases mem_splitN (c := '-') (n := 4) hx with rfl | ⟨piece, hpiece, hmem⟩
          · decide
          · rw [hpieces] at hpiece
            simp only [List.mem_cons, List.not_mem_nil, or_false] at hpiece
            rcases hpiece with rfl | rfl | rfl | rfl | rfl
            · simp [isCatalogChar, hyear x hmem]
            · simp [isCatalogChar, hmonth x hmem]
            · simp [isCatalogChar, hday x hmem]
            · simp [isCatalogChar, hkind x hmem]
            · exact hlast x hmem
    · exact absurd h (by simp)

/-- A catalogue id: the name of a media file. -/
structure CatalogId where
  val : Str
  wellFormed : isCatalogId val = true
  deriving DecidableEq

/-- Parse a canonical catalogue id; the error carries the input. -/
def CatalogId.parse (s : Str) : Except Str CatalogId :=
  if h : isCatalogId s = true then .ok ⟨s, h⟩ else .error s

/-- A catalogue id parses back from its own string. -/
@[simp] lemma CatalogId.parse_val (c : CatalogId) : CatalogId.parse c.val = .ok c := by
  rw [CatalogId.parse, dif_pos c.wellFormed]

/-- A parsed catalogue id is the string it was parsed from. -/
lemma CatalogId.val_of_parse {s : Str} {c : CatalogId} (h : CatalogId.parse s = .ok c) :
    c.val = s := by
  unfold CatalogId.parse at h
  split at h
  · exact congrArg CatalogId.val (Except.ok.inj h).symm
  · exact absurd h (by simp)

/-- Reason a string did not parse as a `WikiSlug` or a `WikiId`: both follow the same rules. -/
inductive SlugParseError where
  | empty
  | edgeDash (s : Str)
  | doubleDash (s : Str)
  | invalidChar (s : Str) (c : Char)
  deriving DecidableEq, Repr

/-- A character of a slug: `[a-z0-9-]` or the degree sign of the collision resolver. -/
def isSlugChar (c : Char) : Bool :=
  isAsciiLowercase c || isAsciiDigit c || c == '-' || c == '°'

/-- The checks a slug goes through, in the order they are made. -/
def checkSlug (s : Str) : Except SlugParseError Unit :=
  if s.isEmpty then .error .empty
  else if s.head? = some '-' ∨ s.getLast? = some '-' then .error (.edgeDash s)
  else if Str.contains "--".toList s then .error (.doubleDash s)
  else
    match s.find? fun c => !isSlugChar c with
    | some c => .error (.invalidChar s c)
    | none => .ok ()

/-- A directory-name slug for a memory wiki node. -/
structure WikiSlug where
  val : Str
  wellFormed : checkSlug val = .ok ()
  deriving DecidableEq

lemma checkSlug_alice : checkSlug "alice".toList = .ok () := by decide

lemma checkSlug_aliceProj : checkSlug "alice-proj".toList = .ok () := by decide

lemma checkSlug_garden : checkSlug "garden".toList = .ok () := by decide

/-- Parse and validate a slug string. -/
def WikiSlug.parse (s : Str) : Except SlugParseError WikiSlug :=
  match h : checkSlug s with
  | .ok () => .ok ⟨s, h⟩
  | .error e => .error e

/-- Stable identifier of a wiki; the charset of a slug. -/
structure WikiId where
  val : Str
  wellFormed : checkSlug val = .ok ()
  deriving DecidableEq

/-- Parse and validate a wiki id string. -/
def WikiId.parse (s : Str) : Except SlugParseError WikiId :=
  match h : checkSlug s with
  | .ok () => .ok ⟨s, h⟩
  | .error e => .error e

lemma WikiId.val_of_parse {s : Str} {id : WikiId} (h : WikiId.parse s = .ok id) : id.val = s := by
  unfold WikiId.parse at h
  split at h
  · rw [← Except.ok.inj h]
  · cases h

/-- The well-known id of the wiki-root. -/
def WikiId.root : WikiId := ⟨"root".toList, by decide⟩

/-- What a checked slug is. -/
lemma checkSlug_eq_ok_iff {s : Str} :
    checkSlug s = .ok () ↔ s ≠ [] ∧ s.head? ≠ some '-' ∧ s.getLast? ≠ some '-' ∧
      ¬ ['-', '-'] <:+: s ∧ ∀ c ∈ s, isSlugChar c = true := by
  have hcontains : Str.contains "--".toList s = true ↔ ['-', '-'] <:+: s := by
    rw [Str.contains, Option.isSome_iff_ne_none, ne_eq, Search.splitOnce_eq_none_iff (by simp),
      not_not]
    rfl
  unfold checkSlug
  split_ifs with hnil hedge hdouble
  · simp_all
  · simp only [false_iff, not_and]
    rintro - hhead hlast
    exact absurd hedge (by tauto)
  · simp only [false_iff, not_and]
    rintro - - - hno
    exact absurd (hcontains.mp hdouble) hno
  · rw [not_or] at hedge
    rw [hcontains] at hdouble
    cases hfind : s.find? fun c => !isSlugChar c with
    | some c =>
      have hc := List.find?_some hfind
      have hmem := List.mem_of_find?_eq_some hfind
      simp only [reduceCtorEq, false_iff, not_and]
      rintro - - - - hall
      simp [hall c hmem] at hc
    | none =>
      simp only [true_iff]
      refine ⟨by simpa using hnil, hedge.1, hedge.2, hdouble, ?_⟩
      simpa using hfind

/-- A dash between two slugs makes a slug. -/
lemma checkSlug_join {a b : Str} (ha : checkSlug a = .ok ()) (hb : checkSlug b = .ok ()) :
    checkSlug (a ++ '-' :: b) = .ok () := by
  rw [checkSlug_eq_ok_iff] at ha hb ⊢
  obtain ⟨hane, hahead, halast, hadouble, hachars⟩ := ha
  obtain ⟨hbne, hbhead, hblast, hbdouble, hbchars⟩ := hb
  refine ⟨by simp, ?_, ?_, ?_, ?_⟩
  · cases a with
    | nil => exact absurd rfl hane
    | cons c a => simpa using hahead
  · rw [List.getLast?_append_of_ne_nil _ (by simp), List.getLast?_cons_of_ne_nil hbne]
    exact hblast
  · rintro ⟨u, v, huv⟩
    rw [List.append_assoc] at huv
    rcases List.append_eq_append_iff.mp huv with ⟨x, hx, hrest⟩ | ⟨x, hx, hrest⟩
    · rcases x with _ | ⟨c, _ | ⟨c', x⟩⟩
      · simp only [List.nil_append, List.cons_append, List.cons.injEq, true_and] at hrest
        exact hbhead (by rw [← hrest]; rfl)
      · simp only [List.cons_append, List.nil_append, List.cons.injEq] at hrest
        obtain ⟨rfl, -⟩ := hrest
        exact halast (by simp [hx])
      · simp only [List.cons_append, List.nil_append, List.cons.injEq] at hrest
        obtain ⟨rfl, rfl, -⟩ := hrest
        exact hadouble ⟨u, x, by simp [hx]⟩
    · rcases x with _ | ⟨c, x⟩
      · simp only [List.nil_append, List.cons_append, List.cons.injEq, true_and] at hrest
        exact hbhead (by rw [hrest]; rfl)
      · simp only [List.cons_append, List.cons.injEq] at hrest
        exact hbdouble ⟨x, v, by simp [hrest.2]⟩
  · intro c hc
    rcases List.mem_append.mp hc with hc | hc
    · exact hachars c hc
    · rcases List.mem_cons.mp hc with rfl | hc
      · decide
      · exact hbchars c hc
/-- The id of a child: its slug, behind the parent's id unless the parent is the root. -/
def WikiId.childOf (parent : WikiId) (child : WikiSlug) : WikiId :=
  if parent = WikiId.root then ⟨child.val, child.wellFormed⟩
  else ⟨parent.val ++ '-' :: child.val, checkSlug_join parent.wellFormed child.wellFormed⟩

/-! ## Region attributes -/

/-- Attributes carried by a region opening marker. -/
structure RegionAttrs where
  acl : Acl := {}
  /-- Cross-user attribution. -/
  sender : Option Principal := none
  /-- The fact behind the region, from `f=`. -/
  factId : Option FactId := none
  /-- `external=`: the name of what the region is about, when that is not a principal. -/
  subjectExternal : Option Str := none
  deriving DecidableEq

end Mwe
