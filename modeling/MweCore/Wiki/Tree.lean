import MweCore.Wiki.Meta

/-!
# The tree of wikis on disk

A wiki is a directory with a `_meta.md` in it, somewhere below `<workdir>/wikis`.  `locate` finds
one by its id, `resolveScopePrincipal` follows the chain of parents to whom it stands for.

A page is named by a path inside the wiki's directory, given as text.  `components` reads it as
`std::path` does, and `isSafePagePath`, `pagePathCaseHazard`, `pageExistsByteExact` and
`pageCaseConflict` work on the components; the host follows the text itself (`hops`), which is not
the same for a path that ends in a separator.

The host keeps the case of names apart.  The reads and writes of a file are whole: another process
sees the content before or after one, never in between, and the temporary file of `atomicWrite` is
nobody's business.
-/

namespace Mwe

open Str

/-- The content of a file: text, or bytes that are not UTF-8. -/
inductive FileBytes where
  | text (s : Str)
  | binary (bytes : List UInt8)
  deriving DecidableEq

/-- The host's disk. -/
abbrev HostDisk := Fs.Disk Str FileBytes

/-- Name of a wiki's meta file, of its house rules, and of its briefing inbox. -/
def metaFilename : Str := "_meta.md".toList
def rulesFilename : Str := "@rules.md".toList
def briefingFilename : Str := "_briefing.md".toList

/-- What a write marker's name ends in. -/
def markerSuffix : Str := ".mwe-write-in-progress".toList

/-- The marker beside a file that is being written is not a page. -/
def isMarkerPath (p : HostPath) : Bool :=
  (p.getLast?.any fun name => markerSuffix.isSuffixOf name)

/-- The marker beside a file. -/
def markerPath (p : HostPath) : HostPath := p.dropLast ++ [p.getLast?.getD [] ++ markerSuffix]

/-! ## Paths as text -/

/-- A component of a path. -/
inductive Component where
  | rootDir | curDir | parentDir
  | normal (name : Str)
  deriving DecidableEq

/-- What stands between the separators. -/
def pieces (p : Str) : List Str := p.splitOn '/'

/-- The component a piece makes, behind the first. -/
def componentOf (piece : Str) : Option Component :=
  if piece = [] ∨ piece = ['.'] then none
  else if piece = ['.', '.'] then some .parentDir
  else some (.normal piece)

/-- The components of a path: repeated separators and inner `.` leave no trace. -/
def components (p : Str) : List Component :=
  (if p.head? = some '/' then [.rootDir]
    else if (pieces p).head? = some ['.'] then [.curDir]
    else []) ++ (pieces p).filterMap componentOf

/-- The name of a normal component. -/
def Component.name? : Component → Option Str
  | .normal name => some name
  | _ => none

/-- The names a path goes through. -/
def pathNames (p : Str) : List Str := (components p).filterMap Component.name?

/-- The hop the host makes for a piece. -/
def hopOf (piece : Str) : Fs.Hop Str :=
  if piece = [] ∨ piece = ['.'] then .stay
  else if piece = ['.', '.'] then .up
  else .into piece

/-- The way the host takes along a path. -/
def hops (p : Str) : List (Fs.Hop Str) := (pieces p).map hopOf

/-- A path the host takes for a directory's, whatever it leads to. -/
def endsInDirectory (p : Str) : Bool :=
  ((pieces p).getLast?.any fun piece => piece = [] ∨ piece = ['.'])

/-- A character a page's name may have. -/
def isPageChar (c : Char) : Bool :=
  isAsciiLowercase c || ('A' ≤ c && c ≤ 'Z') || isAsciiDigit c ||
    c == '-' || c == '_' || c == '.' || c == '@'

/-- A name a page's path may have: hidden names are the engine's, except `.md`. -/
def isPageName (name : Str) : Bool :=
  !name.isEmpty && name.all isPageChar && name != ['.'] && name != ['.', '.'] &&
    !(name.head? == some '.' && name != ".md".toList)

/-- A component of a page's path. -/
def isSafeComponent : Component → Bool
  | .normal name => isPageName name
  | _ => false

/-- Whether a path is accepted as a page's. -/
def isSafePagePath (p : Str) : Bool :=
  p.head? != some '/' && (components p).all isSafeComponent && !(components p).isEmpty

/-- Equality up to the case of ASCII letters. -/
def eqIgnoreAsciiCase (a b : Str) : Bool := toAsciiLowercase a == toAsciiLowercase b

/-- The names a wiki reserves. -/
def reservedFilenames : List Str := [metaFilename, rulesFilename, briefingFilename]

/-- A name that is another spelling of a reserved one. -/
def reservedVariant (name : Str) : Option Str :=
  reservedFilenames.find? fun r => name != r && eqIgnoreAsciiCase name r

/-- The case hazard a page's path carries on its own, independent of the disk. -/
def pagePathCaseHazard (rel : Str) : Option Str :=
  match (pathNames rel).findSome? fun name => (reservedVariant name).map fun r => (name, r) with
  | some (name, r) => some (debug name ++ " is a case variant of the reserved filename ".toList ++
      debug r)
  | none =>
    match (components rel).getLast? with
    | some (.normal name) =>
      let ext := name.drop (name.length - 3)
      if 3 < name.length && eqIgnoreAsciiCase ext ".md".toList && ext != ".md".toList then
        some (debug name ++ " spells the .md extension as ".toList ++ debug ext ++
          (" — the link grammar strips/appends a byte-exact lowercase `.md`, so links to this " ++
            "page would never resolve; use `.md`").toList)
      else none
    | _ => none

/-! ## Pages on disk -/

/-- Whether the components lead to an entry, each found in its directory's listing. -/
def existsFrom (d : HostDisk) (cur : HostPath) : List Component → Bool
  | [] => true
  | .normal s :: rest =>
    match d.readDir cur with
    | none => false
    | some names => s ∈ names && existsFrom d (cur ++ [s]) rest
  | _ :: _ => false

/-- Whether a page exists with this exact spelling. -/
def pageExistsByteExact (d : HostDisk) (absDir : HostPath) (rel : Str) : Bool :=
  existsFrom d absDir (components rel)

/-- The first component that an entry of its directory differs from in case only; `found` is the
way there. -/
def caseConflictFrom (d : HostDisk) (cur found : HostPath) : List Component → Option HostPath
  | [] => none
  | .normal s :: rest =>
    match d.readDir cur with
    | none => none
    | some names =>
      if s ∈ names then caseConflictFrom d (cur ++ [s]) (found ++ [s]) rest
      else (names.find? fun existing => eqIgnoreAsciiCase existing s).map fun e => found ++ [e]
  | _ :: _ => none

/-- The text of a path. -/
def pathText (p : HostPath) : Str := ['/'].intercalate p

/-- The entry a new page would collide with where case is not told apart. -/
def pageCaseConflict (d : HostDisk) (absDir : HostPath) (rel : Str) : Option Str :=
  (caseConflictFrom d absDir [] (components rel)).map fun found =>
    "case-collides with existing `".toList ++ pathText found ++
      "` — a case-insensitive mirror treats them as the same file; reuse that exact spelling".toList

/-- Read a file as text. -/
def readToString (d : HostDisk) (p : HostPath) : Except Fs.Errno Str :=
  match d.readFile p with
  | .ok (.text s) => .ok s
  | .ok (.binary _) => .error .invalidData
  | .error e => .error e

/-- A file reads as a text when it is one and the host opens it. -/
lemma readToString_eq_ok_iff {d : HostDisk} {p : HostPath} {s : Str} :
    readToString d p = .ok s ↔ d.file? p = some (.text s) ∧ d.denied p = false := by
  unfold readToString Fs.Disk.readFile Fs.Disk.file?
  cases d.node? p with
  | none => simp
  | some n =>
    cases n with
    | dir => simp
    | file c =>
      by_cases hdenied : d.denied p = true
      · simp [hdenied]
      · cases c <;> simp [hdenied]

lemma file?_of_readToString {d : HostDisk} {p : HostPath} {s : Str}
    (h : readToString d p = .ok s) : d.file? p = some (.text s) :=
  (readToString_eq_ok_iff.mp h).1

/-- Where a path leads from a directory; an absolute path leads from the root. -/
def follow (d : HostDisk) (dir : HostPath) (rel : Str) : Except Fs.Errno HostPath :=
  d.resolve (if rel.head? = some '/' then [] else dir) (hops rel)

/-- Change the disk. -/
def change (f : HostDisk → Except Fs.Errno HostDisk) : EStateM Fs.Errno HostDisk Unit := fun d =>
  match f d with
  | .ok d' => .ok () d'
  | .error e => .error e d

/-- Rename a temporary file onto the target.  The marker goes whether that succeeds or not. -/
def persist (target marker : HostPath) (bytes : FileBytes) : EStateM Fs.Errno HostDisk Unit :=
  fun d =>
    match d.replaceFile target bytes with
    | .ok d' => .ok () (d'.erase marker)
    | .error e => .error e (d.erase marker)

/-- Write a file by renaming a temporary one onto it, with a marker beside it meanwhile. -/
def atomicWrite (dir : HostPath) (rel : Str) (bytes : FileBytes) :
    EStateM Fs.Errno HostDisk Unit := do
  let target := dir ++ pathNames rel
  change fun d => d.makeDirs [] target.dropLast
  let marker ← Effect.check fun d => follow d dir (rel ++ markerSuffix)
  change fun d => d.replaceFile marker (.text [])
  persist target marker bytes

/-! ### What a page's path leads to -/

lemma all_normal {cs : List Component} (h : cs.all isSafeComponent = true) :
    cs = (cs.filterMap Component.name?).map .normal := by
  induction cs with
  | nil => rfl
  | cons c cs ih =>
    rw [List.all_cons, Bool.and_eq_true] at h
    cases c with
    | normal name => simpa [Component.name?] using ih h.2
    | rootDir | curDir | parentDir => simp [isSafeComponent] at h

/-- The components of a page's path are names. -/
lemma components_of_safe {rel : Str} (h : isSafePagePath rel = true) :
    components rel = (pathNames rel).map .normal ∧ pathNames rel ≠ [] := by
  simp only [isSafePagePath, Bool.and_eq_true, Bool.not_eq_true'] at h
  have hall := all_normal h.1.2
  refine ⟨hall, ?_⟩
  intro hnil
  unfold pathNames at hnil
  rw [hnil] at hall
  simp [hall] at h

lemma existsFrom_iff {d : HostDisk} {cur names : HostPath} :
    existsFrom d cur (names.map .normal) = true ↔
      names = [] ∨ d.node? (cur ++ names) ≠ none := by
  induction names generalizing cur with
  | nil => simp [existsFrom]
  | cons n names ih =>
    have hup : d.node? (cur ++ n :: names) ≠ none → d.node? (cur ++ [n]) ≠ none := by
      intro hnode
      cases names with
      | nil => exact hnode
      | cons m names =>
        have := Fs.Disk.isDir_of_append_ne_nil (d := d) (p := cur ++ [n]) (q := m :: names)
          (by simp) (by simpa using hnode)
        simp [this]
    rw [List.map_cons, existsFrom]
    cases hread : d.readDir cur with
    | none =>
      have hnot : d.node? cur ≠ some .dir := by
        intro hdir
        simp [Fs.Disk.readDir, Fs.Disk.isDir_iff.mpr hdir] at hread
      have hnone : d.node? (cur ++ n :: names) = none := by
        by_contra hne
        exact hnot (Fs.Disk.isDir_of_append_ne_nil (by simp) hne)
      simp [hnone]
    | some listing =>
      simp only [Bool.and_eq_true, decide_eq_true_eq, Fs.Disk.mem_readDir_iff hread, ih]
      constructor
      · rintro ⟨hn, rfl | hrest⟩
        · exact .inr hn
        · exact .inr (by simpa using hrest)
      · rintro (hcon | hnode)
        · simp at hcon
        · exact ⟨hup hnode, .inr (by simpa using hnode)⟩

/-- A page exists when there is something at its path. -/
lemma pageExistsByteExact_iff {d : HostDisk} {dir : HostPath} {rel : Str}
    (h : isSafePagePath rel = true) :
    pageExistsByteExact d dir rel = true ↔ d.node? (dir ++ pathNames rel) ≠ none := by
  obtain ⟨hcomp, hne⟩ := components_of_safe h
  rw [pageExistsByteExact, hcomp, existsFrom_iff]
  simp [hne]

/-- What is appended to a path goes to its last piece. -/
lemma pieces_append {s t : Str} (ht : '/' ∉ t) :
    ∃ init last, pieces s = init ++ [last] ∧ pieces (s ++ t) = init ++ [last ++ t] := by
  unfold pieces
  induction hlen : s.length using Nat.strong_induction_on generalizing s with
  | _ n ih =>
    by_cases hsep : '/' ∈ s
    · obtain ⟨head, rest, rfl, hhead⟩ := List.eq_append_cons_of_mem hsep
      obtain ⟨init, last, hrest, happ⟩ :=
        ih rest.length (by rw [← hlen]; simp; omega) (s := rest) rfl
      refine ⟨head :: init, last, ?_, ?_⟩
      · rw [List.splitOn_append_cons_self_of_not_mem hhead, hrest]
        rfl
      · rw [List.append_assoc, List.cons_append, List.splitOn_append_cons_self_of_not_mem hhead,
          happ]
        rfl
    · refine ⟨[], s, ?_, ?_⟩
      · rw [List.splitOn_eq_singleton hsep, List.nil_append]
      · rw [List.splitOn_eq_singleton, List.nil_append]
        simp [hsep, ht]

/-- The pieces of a safe path lead where its names do. -/
lemma hops_of_safe {ps : List Str} (h : (ps.filterMap componentOf).all isSafeComponent = true) :
    (ps.map hopOf).filter (fun hop => !decide (hop = .stay)) =
      ((ps.filterMap componentOf).filterMap Component.name?).map .into := by
  induction ps with
  | nil => rfl
  | cons piece ps ih =>
    by_cases hstay : piece = [] ∨ piece = ['.']
    · have hhop : hopOf piece = .stay := if_pos hstay
      have hcomp : componentOf piece = none := if_pos hstay
      rw [List.filterMap_cons_none hcomp] at h ⊢
      rw [List.map_cons, hhop, List.filter_cons_of_neg (by simp)]
      exact ih h
    · by_cases hup : piece = ['.', '.']
      · have hcomp : componentOf piece = some .parentDir := by
          rw [componentOf, if_neg hstay, if_pos hup]
        rw [List.filterMap_cons_some hcomp] at h
        simp [isSafeComponent] at h
      · have hhop : hopOf piece = .into piece := by rw [hopOf, if_neg hstay, if_neg hup]
        have hcomp : componentOf piece = some (.normal piece) := by
          rw [componentOf, if_neg hstay, if_neg hup]
        rw [List.filterMap_cons_some hcomp] at h ⊢
        rw [List.all_cons, Bool.and_eq_true] at h
        rw [List.map_cons, hhop, List.filter_cons_of_pos (by simp), ih h.2]
        rfl

/-- The components of a safe path are those of its pieces. -/
lemma components_eq_pieces {rel : Str} (h : isSafePagePath rel = true) :
    components rel = (pieces rel).filterMap componentOf ∧
      ((pieces rel).filterMap componentOf).all isSafeComponent = true := by
  simp only [isSafePagePath, Bool.and_eq_true, bne_iff_ne, ne_eq] at h
  obtain ⟨⟨hroot, hall⟩, -⟩ := h
  unfold components at hall ⊢
  rw [if_neg hroot] at hall ⊢
  split_ifs at hall ⊢ with hcur
  · simp [isSafeComponent] at hall
  · exact ⟨rfl, by simpa using hall⟩

/-- A piece the engine reads as a name. -/
lemma componentOf_of_not_dir {piece : Str} (h : ¬(piece = [] ∨ piece = ['.']))
    (hsafe : ([piece].filterMap componentOf).all isSafeComponent = true) :
    componentOf piece = some (.normal piece) := by
  unfold componentOf at hsafe ⊢
  rw [if_neg h]
  split_ifs with hup
  · simp [hup, isSafeComponent] at hsafe
  · rfl

/-- The host follows a safe path, with something appended to its last piece, through the names in
front of that piece. -/
lemma follow_append {d : HostDisk} (dir : HostPath) {m : HostPath} {rel t last : Str} {init : List Str}
    (h : isSafePagePath rel = true) (hpieces : pieces rel = init ++ [last])
    (happ : pieces (rel ++ t) = init ++ [last ++ t]) (hlast : hopOf (last ++ t) = .into (last ++ t)) :
    follow d dir (rel ++ t) = .ok m ↔
      d.node? (dir ++ (init.filterMap componentOf).filterMap Component.name?) = some .dir ∧
        m = dir ++ (init.filterMap componentOf).filterMap Component.name? ++ [last ++ t] := by
  obtain ⟨-, hall⟩ := components_eq_pieces h
  rw [hpieces, List.filterMap_append, List.all_append, Bool.and_eq_true] at hall
  have hroot : (rel ++ t).head? ≠ some '/' := by
    simp only [isSafePagePath, Bool.and_eq_true, bne_iff_ne, ne_eq] at h
    cases rel with
    | nil => simp [components, pieces, componentOf] at h
    | cons c rel => simpa using h.1.1
  rw [follow, if_neg hroot, hops, happ, List.map_append, List.map_singleton, hlast,
    Fs.Disk.resolve_stay, hops_of_safe hall.1, ← List.map_singleton, ← List.map_append,
    Fs.Disk.resolve_into_iff]

/-- The names of a safe path: those in front of the last piece, and the last piece unless the host
takes the path for a directory's. -/
lemma pathNames_of_pieces {rel last : Str} {init : List Str} (h : isSafePagePath rel = true)
    (hpieces : pieces rel = init ++ [last]) :
    pathNames rel = (init.filterMap componentOf).filterMap Component.name? ++
        (if endsInDirectory rel then [] else [last]) ∧
      (endsInDirectory rel = false → hopOf last = .into last) := by
  obtain ⟨hcomp, hall⟩ := components_eq_pieces h
  rw [hpieces, List.filterMap_append, List.all_append, Bool.and_eq_true] at hall
  have hends : endsInDirectory rel = true ↔ last = [] ∨ last = ['.'] := by
    simp [endsInDirectory, hpieces]
  rw [pathNames, hcomp, hpieces, List.filterMap_append, List.filterMap_append]
  by_cases hdir : last = [] ∨ last = ['.']
  · have hcl : componentOf last = none := if_pos hdir
    rw [List.filterMap_cons_none hcl, if_pos (hends.mpr hdir)]
    refine ⟨rfl, ?_⟩
    intro hfalse
    simp [hends.mpr hdir] at hfalse
  · have hcl := componentOf_of_not_dir hdir hall.2
    rw [List.filterMap_cons_some hcl, if_neg fun hcon => hdir (hends.mp hcon)]
    refine ⟨rfl, ?_⟩
    rintro -
    unfold componentOf at hcl
    rw [if_neg hdir] at hcl
    rw [hopOf, if_neg hdir, if_neg]
    rintro hup
    simp [hup] at hcl

/-- Where the host looks for the marker of a page. -/
lemma follow_marker {d : HostDisk} {dir m : HostPath} {rel : Str}
    (h : isSafePagePath rel = true) :
    follow d dir (rel ++ markerSuffix) = .ok m ↔
      if endsInDirectory rel then
        d.node? (dir ++ pathNames rel) = some .dir ∧
          ∃ last, m = dir ++ pathNames rel ++ [last ++ markerSuffix]
            ∧ (pieces rel).getLast? = some last
      else
        d.node? (dir ++ pathNames rel).dropLast = some .dir ∧
          m = markerPath (dir ++ pathNames rel) := by
  obtain ⟨init, last, hpieces, happ⟩ := pieces_append (s := rel) (t := markerSuffix) (by decide)
  have hlast : hopOf (last ++ markerSuffix) = .into (last ++ markerSuffix) := by
    have hlen : 2 < (last ++ markerSuffix).length := by
      rw [List.length_append]
      have : markerSuffix.length = 22 := by decide
      omega
    rw [hopOf, if_neg, if_neg]
    · intro heq
      simp [heq] at hlen
    · rintro (heq | heq) <;> simp [heq] at hlen
  rw [follow_append dir h hpieces happ hlast, (pathNames_of_pieces h hpieces).1]
  split_ifs with hdir
  · simp [hpieces]
  · simp [markerPath, ← List.append_assoc]

/-- Where the host looks for a page whose path names a file. -/
lemma follow_page {d : HostDisk} {dir m : HostPath} {rel : Str} (h : isSafePagePath rel = true)
    (hfile : endsInDirectory rel = false) :
    follow d dir rel = .ok m ↔
      d.node? (dir ++ pathNames rel).dropLast = some .dir ∧ m = dir ++ pathNames rel := by
  obtain ⟨init, last, hpieces, -⟩ := pieces_append (s := rel) (t := []) (by simp)
  obtain ⟨hnames, hlast⟩ := pathNames_of_pieces h hpieces
  have happ := follow_append (d := d) (m := m) (t := []) dir h hpieces
    (by simpa using hpieces) (by simpa using hlast hfile)
  rw [List.append_nil, List.append_nil] at happ
  rw [happ, hnames, if_neg (by simp [hfile])]
  simp [← List.append_assoc]

/-- A path that ends in a separator leads to a directory only. -/
lemma isDir_of_follow {d : HostDisk} {dir m : HostPath} {rel : Str}
    (hdir : endsInDirectory rel = true) (hm : follow d dir rel = .ok m) :
    d.node? m = some .dir := by
  obtain ⟨init, last, hpieces, -⟩ := pieces_append (s := rel) (t := []) (by simp)
  have hlast : last = [] ∨ last = ['.'] := by simpa [endsInDirectory, hpieces] using hdir
  have hhop : hopOf last = .stay := if_pos hlast
  rw [follow, hops, hpieces, List.map_append, List.map_singleton, hhop,
    Fs.Disk.resolve_stay_last] at hm
  exact hm.2

/-! ### What a write does -/

lemma change_ok_iff {f : HostDisk → Except Fs.Errno HostDisk} {d d' : HostDisk} :
    change f d = .ok () d' ↔ f d = .ok d' := by
  unfold change
  cases f d <;> simp

lemma change_error_iff {f : HostDisk → Except Fs.Errno HostDisk} {d d' : HostDisk}
    {e : Fs.Errno} : change f d = .error e d' ↔ f d = .error e ∧ d' = d := by
  unfold change
  cases f d <;> simp [eq_comm]

lemma isMarkerPath_snoc (p : HostPath) (name : Str) :
    isMarkerPath (p ++ [name ++ markerSuffix]) = true := by
  simp [isMarkerPath]

lemma isMarkerPath_markerPath (p : HostPath) : isMarkerPath (markerPath p) = true :=
  isMarkerPath_snoc _ _

lemma isMarkerPath_of_follow {d : HostDisk} {dir m : HostPath} {rel : Str}
    (h : isSafePagePath rel = true) (hm : follow d dir (rel ++ markerSuffix) = .ok m) :
    isMarkerPath m = true := by
  rw [follow_marker h] at hm
  split_ifs at hm
  · obtain ⟨-, last, rfl, -⟩ := hm
    exact isMarkerPath_snoc _ _
  · rw [hm.2]
    exact isMarkerPath_markerPath _

/-- What every disk call of this model keeps: the paths the host denies, and every directory. -/
def Grows (d d' : HostDisk) : Prop :=
  d'.denied = d.denied ∧ ∀ q, d.node? q = some .dir → d'.node? q = some .dir

lemma Grows.refl (d : HostDisk) : Grows d d := ⟨rfl, fun _ h => h⟩

lemma Grows.trans {d d' d'' : HostDisk} (h : Grows d d') (h' : Grows d' d'') : Grows d d'' :=
  ⟨h'.1.trans h.1, fun q hq => h'.2 q (h.2 q hq)⟩

lemma grows_makeDirs {d d' : HostDisk} {p : HostPath} (h : d.makeDirs [] p = .ok d') :
    Grows d d' := by
  obtain ⟨hdenied, -, hkept, -⟩ := Fs.Disk.makeDirs_spec h d.node?_nil
  refine ⟨hdenied, ?_⟩
  intro q hq
  rw [hkept q (.inl (by simp [hq])), hq]

lemma grows_replaceFile {d d' : HostDisk} {p : HostPath} {c : FileBytes}
    (h : d.replaceFile p c = .ok d') : Grows d d' := by
  obtain ⟨hdenied, hnode⟩ := Fs.Disk.replaceFile_spec h
  refine ⟨hdenied, ?_⟩
  intro q hq
  have hnot := (Fs.Disk.exists_replaceFile_iff.mp ⟨d', h⟩).2.2.1
  rw [hnode q, if_neg]
  · exact hq
  · rintro rfl
    simp [Fs.Disk.isDir_iff.mpr hq] at hnot

lemma grows_erase (d : HostDisk) (p : HostPath) : Grows d (d.erase p) := by
  refine ⟨d.denied_erase p, ?_⟩
  intro q hq
  rw [Fs.Disk.node?_erase, if_neg]
  · exact hq
  · rintro ⟨rfl, hnot⟩
    simp [Fs.Disk.isDir_iff.mpr hq] at hnot

/-- A call that changes nothing but markers. -/
def SamePages (d d' : HostDisk) : Prop :=
  ∀ q, isMarkerPath q = false → d'.file? q = d.file? q

lemma SamePages.refl (d : HostDisk) : SamePages d d := fun _ _ => rfl

lemma SamePages.trans {d d' d'' : HostDisk} (h : SamePages d d') (h' : SamePages d' d'') :
    SamePages d d'' := fun q hq => (h' q hq).trans (h q hq)

lemma samePages_erase {d : HostDisk} {m : HostPath} (hm : isMarkerPath m = true) :
    SamePages d (d.erase m) := by
  intro q hq
  apply Fs.Disk.file?_congr
  rw [Fs.Disk.node?_erase, if_neg]
  rintro ⟨rfl, -⟩
  simp [hm] at hq

lemma samePages_replaceFile {d d' : HostDisk} {m : HostPath} {c : FileBytes}
    (hm : isMarkerPath m = true) (h : d.replaceFile m c = .ok d') : SamePages d d' := by
  intro q hq
  apply Fs.Disk.file?_congr
  rw [(Fs.Disk.replaceFile_spec h).2 q, if_neg]
  rintro rfl
  simp [hm] at hq

/-- The page a disk gets when a file is put on it. -/
lemma file?_replaceFile {d d' : HostDisk} {p q : HostPath} {c : FileBytes}
    (h : d.replaceFile p c = .ok d') : d'.file? q = if q = p then some c else d.file? q := by
  have hnode := (Fs.Disk.replaceFile_spec h).2 q
  split_ifs at hnode ⊢
  · exact Fs.Disk.file?_eq_some_iff.mpr hnode
  · exact Fs.Disk.file?_congr hnode

/-- The disk in front of the rename, when the write gets that far. -/
lemma atomicWrite_cases (dir : HostPath) (rel : Str) (bytes : FileBytes) (d : HostDisk) :
    (∃ e d₁, atomicWrite dir rel bytes d = .error e d₁ ∧ Grows d d₁ ∧ SamePages d d₁) ∨
      ∃ m d₁ d₂, d.makeDirs [] (dir ++ pathNames rel).dropLast = .ok d₁ ∧
        follow d₁ dir (rel ++ markerSuffix) = .ok m ∧ d₁.replaceFile m (.text []) = .ok d₂ ∧
        atomicWrite dir rel bytes d = persist (dir ++ pathNames rel) m bytes d₂ := by
  unfold atomicWrite
  cases hdirs : d.makeDirs [] (dir ++ pathNames rel).dropLast with
  | error e =>
    exact .inl ⟨e, d, Effect.bind_of_error (change_error_iff.mpr ⟨hdirs, rfl⟩), .refl d, .refl d⟩
  | ok d₁ =>
    have hsame : SamePages d d₁ := fun q _ => (Fs.Disk.makeDirs_spec hdirs d.node?_nil).2.2.2 q
    have hgrows := grows_makeDirs hdirs
    rw [Effect.bind_of_ok (change_ok_iff.mpr hdirs), Effect.check_bind]
    cases hm : follow d₁ dir (rel ++ markerSuffix) with
    | error e => exact .inl ⟨e, d₁, rfl, hgrows, hsame⟩
    | ok m =>
      dsimp only
      cases hmark : d₁.replaceFile m (.text []) with
      | error e =>
        exact .inl ⟨e, d₁, Effect.bind_of_error (change_error_iff.mpr ⟨hmark, rfl⟩), hgrows,
          hsame⟩
      | ok d₂ =>
        refine .inr ⟨m, d₁, d₂, rfl, hm, hmark, ?_⟩
        rw [Effect.bind_of_ok (change_ok_iff.mpr hmark)]

/-- A write that fails changes no page. -/
theorem atomicWrite_error {dir : HostPath} {rel : Str} {bytes : FileBytes} {d d' : HostDisk}
    {e : Fs.Errno} (h : isSafePagePath rel = true)
    (hw : atomicWrite dir rel bytes d = .error e d') : Grows d d' ∧ SamePages d d' := by
  rcases atomicWrite_cases dir rel bytes d with
    ⟨e', d₁, heq, hgrows, hsame⟩ | ⟨m, d₁, d₂, hdirs, hm, hmark, heq⟩
  · obtain ⟨rfl, rfl⟩ := EStateM.Result.error.inj (hw.symm.trans heq)
    exact ⟨hgrows, hsame⟩
  · rw [heq, persist] at hw
    split at hw
    · simp at hw
    · obtain ⟨rfl, rfl⟩ := EStateM.Result.error.inj hw
      have hmarker := isMarkerPath_of_follow h hm
      have hfirst : SamePages d d₁ := fun q _ => (Fs.Disk.makeDirs_spec hdirs d.node?_nil).2.2.2 q
      exact ⟨((grows_makeDirs hdirs).trans (grows_replaceFile hmark)).trans (grows_erase _ _),
        (hfirst.trans (samePages_replaceFile hmarker hmark)).trans (samePages_erase hmarker)⟩

/-- A write that succeeds changes the one page it names. -/
theorem atomicWrite_ok {dir : HostPath} {rel : Str} {bytes : FileBytes} {d d' : HostDisk}
    {u : Unit} (h : isSafePagePath rel = true) (hw : atomicWrite dir rel bytes d = .ok u d') :
    Grows d d' ∧ ∀ q, isMarkerPath q = false →
      d'.file? q = if q = dir ++ pathNames rel then some bytes else d.file? q := by
  rcases atomicWrite_cases dir rel bytes d with
    ⟨e', d₁, heq, -⟩ | ⟨m, d₁, d₂, hdirs, hm, hmark, heq⟩
  · simp [hw] at heq
  · rw [heq, persist] at hw
    split at hw
    · next d₃ hput =>
      obtain ⟨-, rfl⟩ := EStateM.Result.ok.inj hw
      have hmarker := isMarkerPath_of_follow h hm
      refine ⟨(((grows_makeDirs hdirs).trans (grows_replaceFile hmark)).trans
        (grows_replaceFile hput)).trans (grows_erase _ _), ?_⟩
      intro q hq
      rw [samePages_erase hmarker q hq, file?_replaceFile hput,
        samePages_replaceFile hmarker hmark q hq,
        (Fs.Disk.makeDirs_spec hdirs d.node?_nil).2.2.2 q]
    · simp at hw

/-- What a write needs of the disk: the path names a file, no file stands on the way, and neither
the page nor its marker is a directory or denied. -/
structure Writable (d : HostDisk) (dir : HostPath) (rel : Str) : Prop where
  namesFile : endsInDirectory rel = false
  way : ∀ q, q <+: (dir ++ pathNames rel).dropLast → d.file? q = none
  page : d.isDir (dir ++ pathNames rel) = false ∧ d.denied (dir ++ pathNames rel) = false
  marker : d.isDir (markerPath (dir ++ pathNames rel)) = false ∧
    d.denied (markerPath (dir ++ pathNames rel)) = false

lemma Grows.isDir_eq_false {d d' : HostDisk} (h : Grows d d') {q : HostPath}
    (hq : d'.isDir q = false) : d.isDir q = false := by
  by_contra hne
  have hdir := h.2 q (Fs.Disk.isDir_iff.mp (by simpa using hne))
  simp [Fs.Disk.isDir_iff.mpr hdir] at hq

lemma isDir_congr {d d' : HostDisk} {q : HostPath} (h : d'.node? q = d.node? q) :
    d'.isDir q = d.isDir q := by
  unfold Fs.Disk.isDir
  rw [h]

/-- A path is not on the way to where it is. -/
lemma not_prefix_of_length {p q : HostPath} (h : p.length < q.length) : ¬ q <+: p := by
  intro hpre
  have := hpre.length_le
  omega

lemma length_markerPath {p : HostPath} (h : p ≠ []) : (markerPath p).length = p.length := by
  have := List.length_pos_of_ne_nil h
  rw [markerPath, List.length_append, List.length_singleton, List.length_dropLast]
  omega

lemma markerPath_ne {p : HostPath} (h : p ≠ []) : markerPath p ≠ p := by
  intro heq
  obtain ⟨q, name, rfl⟩ := (List.eq_nil_or_concat' p).resolve_left h
  rw [markerPath, List.dropLast_concat, List.getLast?_concat, Option.getD_some] at heq
  have hname : name ++ markerSuffix = name := List.head_eq_of_cons_eq (List.append_cancel_left heq)
  have hlen := congrArg List.length hname
  have hsuffix : 0 < markerSuffix.length := by decide
  rw [List.length_append] at hlen
  omega

/-- A write that goes through had nothing against it. -/
lemma Writable.of_atomicWrite {d d' : HostDisk} {dir : HostPath} {rel : Str} {bytes : FileBytes}
    {u : Unit} (h : isSafePagePath rel = true) (hw : atomicWrite dir rel bytes d = .ok u d') :
    Writable d dir rel := by
  rcases atomicWrite_cases dir rel bytes d with
    ⟨e, d₁, heq, -⟩ | ⟨m, d₁, d₂, hdirs, hm, hmark, heq⟩
  · simp [hw] at heq
  rw [heq, persist] at hw
  split at hw
  · next d₃ hput =>
    have hfirst := grows_makeDirs hdirs
    have hsecond := hfirst.trans (grows_replaceFile hmark)
    obtain ⟨-, -, hpage, hallowed⟩ := Fs.Disk.exists_replaceFile_iff.mp ⟨d₃, hput⟩
    obtain ⟨-, -, hnot, hmallowed⟩ := Fs.Disk.exists_replaceFile_iff.mp ⟨d₂, hmark⟩
    rw [hsecond.1] at hallowed
    rw [hfirst.1] at hmallowed
    rw [follow_marker h] at hm
    split_ifs at hm with hends
    · -- a path that ends in a separator is written to only when it is a directory
      have hdir := (grows_replaceFile hmark).2 _ hm.1
      simp [Fs.Disk.isDir_iff.mpr hdir] at hpage
    · obtain ⟨-, rfl⟩ := hm
      refine ⟨by simpa using hends, ?_, ⟨hsecond.isDir_eq_false hpage, hallowed⟩,
        ⟨hfirst.isDir_eq_false hnot, hmallowed⟩⟩
      intro q hq
      exact (Fs.Disk.exists_makeDirs_iff d.node?_nil).mp ⟨d₁, hdirs⟩ q hq
  · simp at hw

/-- Where nothing stands against it a write goes through. -/
lemma Writable.exists_atomicWrite {d : HostDisk} {dir : HostPath} {rel : Str}
    (bytes : FileBytes) (h : isSafePagePath rel = true) (hw : Writable d dir rel) :
    ∃ d', atomicWrite dir rel bytes d = .ok () d' := by
  have hne : dir ++ pathNames rel ≠ [] := by simp [(components_of_safe h).2]
  have hlen : (dir ++ pathNames rel).dropLast.length < (dir ++ pathNames rel).length := by
    have := List.length_pos_of_ne_nil hne
    rw [List.length_dropLast]
    omega
  obtain ⟨d₁, hdirs⟩ := (Fs.Disk.exists_makeDirs_iff d.node?_nil).mpr hw.way
  obtain ⟨hdenied, hparent, hkept, -⟩ := Fs.Disk.makeDirs_spec hdirs d.node?_nil
  rw [List.nil_append] at hparent hkept
  have hm : follow d₁ dir (rel ++ markerSuffix) = .ok (markerPath (dir ++ pathNames rel)) := by
    rw [follow_marker h, if_neg (by simp [hw.namesFile])]
    exact ⟨hparent, rfl⟩
  have hmark : ∃ d₂, d₁.replaceFile (markerPath (dir ++ pathNames rel)) (.text []) = .ok d₂ := by
    have hnot : d₁.isDir (markerPath (dir ++ pathNames rel)) = false := by
      rw [← hw.marker.1]
      apply isDir_congr
      apply hkept
      exact .inr (not_prefix_of_length (by rw [length_markerPath hne]; exact hlen))
    rw [Fs.Disk.exists_replaceFile_iff, hdenied]
    refine ⟨by simp [markerPath], ?_, hnot, hw.marker.2⟩
    rw [markerPath, List.dropLast_concat]
    exact Fs.Disk.isDir_iff.mpr hparent
  obtain ⟨d₂, hmark⟩ := hmark
  have hput : ∃ d₃, d₂.replaceFile (dir ++ pathNames rel) bytes = .ok d₃ := by
    obtain ⟨hdenied₂, hnode₂⟩ := Fs.Disk.replaceFile_spec hmark
    have hpage : d₂.isDir (dir ++ pathNames rel) = false := by
      have hnode := hnode₂ (dir ++ pathNames rel)
      rw [if_neg (markerPath_ne hne).symm] at hnode
      rw [isDir_congr hnode, isDir_congr (hkept _ (.inr (not_prefix_of_length hlen)))]
      exact hw.page.1
    rw [Fs.Disk.exists_replaceFile_iff, hdenied₂, hdenied]
    exact ⟨hne, Fs.Disk.isDir_iff.mpr ((grows_replaceFile hmark).2 _ hparent), hpage, hw.page.2⟩
  obtain ⟨d₃, hput⟩ := hput
  refine ⟨d₃.erase (markerPath (dir ++ pathNames rel)), ?_⟩
  unfold atomicWrite
  rw [Effect.bind_of_ok (change_ok_iff.mpr hdirs), Effect.check_bind, hm]
  dsimp only
  rw [Effect.bind_of_ok (change_ok_iff.mpr hmark), persist, hput]

/-! ## The tree -/

/-- The tree of wikis of a workdir, and the YAML library its meta files are read with. -/
structure WikiTree where
  workdir : HostPath
  serde : Serde

/-- The directory all wikis are below. -/
def WikiTree.wikisDir (tree : WikiTree) : HostPath := tree.workdir ++ ["wikis".toList]

/-- Order of paths, name by name. -/
def pathLe (p q : HostPath) : Bool :=
  match p, q with
  | [], _ => true
  | _ :: _, [] => false
  | m :: p, n :: q => if m = n then pathLe p q else decide (m < n)

namespace WikiTree

variable (tree : WikiTree) (d : HostDisk)

/-- The directories below the wikis directory that have a meta file, in order. -/
def nodes : List HostPath :=
  (d.entries.keys.filter fun p => tree.wikisDir.isPrefixOf p && p != tree.wikisDir &&
    d.isDir p && (d.node? (p ++ [metaFilename])).isSome).insertionSort fun p q => pathLe p q

/-- Read the meta file of a directory. -/
def discover (dir : HostPath) : Except WikiError WikiHandle := do
  let path := dir ++ [metaFilename]
  match readToString d path with
  | .error e => .error (.io e)
  | .ok raw => do
    let (wikiMeta, _) ← WikiMeta.parse tree.serde path raw
    .ok { relDir := pathText (dir.drop tree.workdir.length), wikiMeta, absDir := dir }

/-- Every wiki of the tree.  A meta file that cannot be read is an error for all of them. -/
def walk : Except WikiError (List WikiHandle) := (tree.nodes d).mapM (tree.discover d)

/-- Locate a wiki by its id. -/
def locate (id : WikiId) : Except WikiError WikiHandle := do
  let wikis ← tree.walk d
  match wikis.find? fun h => h.wikiMeta.wikiId = id with
  | some h => .ok h
  | none => .error (.wikiNotFound id)

/-- The type of a group's own wiki. -/
def groupIdentityWikiType : Str := "wiki-group".toList

/-- Cap on the parents that are followed. -/
def maxAclDefaultHops : ℕ := 64

/-- Follow the parents up from `current`, for the wiki `origin`. -/
def climb (origin : WikiId) : ℕ → List WikiId → WikiMeta → Except WikiError (Option Principal)
  | 0, _, _ => .error (.scopeChainUnresolved origin maxAclDefaultHops)
  | hopsLeft + 1, seen, current =>
    match current.parentWikiId with
    | none =>
      .ok (if current.wikiType = identityWikiType then some (.user current.wikiId.val)
        else if current.wikiType = groupIdentityWikiType then some (.group current.wikiId.val)
        else none)
    | some parentId =>
      if parentId ∈ seen then .error (.scopeChainUnresolved origin maxAclDefaultHops)
      else
        match tree.locate d parentId with
        | .error e => .error e
        | .ok parent => climb origin hopsLeft (parentId :: seen) parent.wikiMeta

/-- The principal a wiki stands for: what the root of its chain of parents is. -/
def resolveScopePrincipal (wikiMeta : WikiMeta) : Except WikiError (Option Principal) :=
  tree.climb d wikiMeta.wikiId maxAclDefaultHops [wikiMeta.wikiId] wikiMeta

/-! ### What is located -/

variable {tree : WikiTree} {d : HostDisk}

/-- A wiki that was located is a directory whose meta file reads as its handle says. -/
lemma meta_of_locate {id : WikiId} {handle : WikiHandle} (h : tree.locate d id = .ok handle) :
    handle.wikiMeta.wikiId = id ∧ ∃ raw body,
      readToString d (handle.absDir ++ [metaFilename]) = .ok raw ∧
      WikiMeta.parse tree.serde (handle.absDir ++ [metaFilename]) raw =
        .ok (handle.wikiMeta, body) := by
  unfold locate at h
  obtain ⟨wikis, hwalk, h⟩ := Effect.except_bind_ok_iff.mp h
  split at h
  · next found hfind =>
    obtain rfl := Except.ok.inj h
    refine ⟨by simpa using List.find?_some hfind, ?_⟩
    obtain ⟨dir, -, hdisc⟩ := Effect.except_mapM_mem hwalk (List.mem_of_find?_eq_some hfind)
    unfold discover at hdisc
    dsimp only at hdisc
    split at hdisc
    · simp at hdisc
    · next raw hraw =>
      obtain ⟨⟨wikiMeta, body⟩, hparse, hhandle⟩ := Effect.except_bind_ok_iff.mp hdisc
      obtain rfl := Except.ok.inj hhandle
      exact ⟨raw, body, hraw, hparse⟩
  · simp at h

/-- Once a tree is readable, what is not located is not there. -/
lemma locate_error {id id' : WikiId} {handle : WikiHandle} {e : WikiError}
    (h : tree.locate d id = .ok handle) (h' : tree.locate d id' = .error e) :
    e = .wikiNotFound id' := by
  unfold locate at h h'
  obtain ⟨wikis, hwalk, -⟩ := Effect.except_bind_ok_iff.mp h
  rw [hwalk] at h'
  simp only [bind, Except.bind] at h'
  split at h'
  · simp at h'
  · exact (Except.error.inj h').symm

/-- Once a tree is readable, the chain of parents is unresolved only when a parent is missing, or
it has no end. -/
lemma resolve_error {id : WikiId} {handle : WikiHandle} {wikiMeta : WikiMeta} {e : WikiError}
    (h : tree.locate d id = .ok handle) (he : tree.resolveScopePrincipal d wikiMeta = .error e) :
    (∃ parent, e = .wikiNotFound parent) ∨ ∃ wiki cap, e = .scopeChainUnresolved wiki cap := by
  unfold resolveScopePrincipal at he
  generalize maxAclDefaultHops = n at he
  generalize [wikiMeta.wikiId] = seen at he
  generalize wikiMeta.wikiId = origin at he
  induction n generalizing seen wikiMeta with
  | zero => exact .inr ⟨_, _, (Except.error.inj he).symm⟩
  | succ n ih =>
    rw [climb] at he
    split at he
    · simp at he
    · split_ifs at he
      · exact .inr ⟨_, _, (Except.error.inj he).symm⟩
      · split at he
        · next e' hparent =>
          obtain rfl := Except.error.inj he
          exact .inl ⟨_, locate_error h hparent⟩
        · exact ih _ he

end WikiTree

/-- A meta file that parsed is canonical. -/
lemma WikiMeta.canonical_of_parse {serde : Serde} (hserde : serde.Lawful) {path : HostPath}
    {raw body : Str} {m : WikiMeta} (h : WikiMeta.parse serde path raw = .ok (m, body)) :
    m.Canonical := by
  unfold WikiMeta.parse at h
  split at h
  · simp at h
  · split at h
    · simp at h
    · next mapping hmapping =>
      obtain ⟨m', hm', hpair⟩ := Effect.except_bind_ok_iff.mp h
      obtain ⟨rfl, -⟩ := Prod.mk.inj (Except.ok.inj hpair)
      exact WikiMeta.fromMapping_canonical (hserde.distinct hmapping) hm'

/-- A disk with files of text on it. -/
def diskOf (files : List (HostPath × Str)) : HostDisk :=
  files.foldl (fun d f =>
    match d.makeDirs [] f.1.dropLast with
    | .error _ => d
    | .ok d' => ((d'.replaceFile f.1 (.text f.2)).toOption).getD d') (Fs.Disk.empty fun _ => false)

end Mwe
