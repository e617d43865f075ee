import MweCore.Briefing.Inbox

/-!
# What one note does to the file

`appended` pastes the texts of a row into the section, and its time stamp into the front matter
too.  When no line of them looks like a heading or a fence (`BriefingRow.Plain`), one heading is
added (`headings_appended`), what stood from the first heading on still stands there
(`fromLine_appended`), and the front matter keeps its lines (`frontMatter_appended`).
-/

namespace Mwe

open Str Sql

namespace Briefing

/-! ## Reading the file -/

/-- A line that starts like the heading of a section. -/
def isHeading (l : Str) : Bool := "## bi_".toList.isPrefixOf l

/-- A line that is the heading of an id. -/
def headedBy (id : ℕ) (l : Str) : Bool := ("## ".toList ++ briefingItemId id ++ [' ']).isPrefixOf l

/-- A line of the front matter that says when the file was last updated. -/
def isLastUpdated (l : Str) : Bool := "last_updated:".toList.isPrefixOf l

/-- The headings of a document. -/
def headings (s : Str) : List Str := (breakLines s).filter isHeading

/-- The lines of the front matter of a document. -/
def frontMatter (s : Str) : List Str := (locateFrontmatter s).elim [] fun p => lines p.2.1

/-- No line of a row's texts looks like a heading, and none of its time stamp like a fence.  The
texts other than the body begin inside a line of the section. -/
structure BriefingRow.Plain (r : BriefingRow) : Prop where
  body : ∀ l ∈ breakLines r.body, isHeading l = false
  topic : ∀ l ∈ (breakLines r.topic).tail, isHeading l = false
  sourceRef : ∀ l ∈ (breakLines r.sourceRef).tail, isHeading l = false
  ts : ∀ l ∈ (breakLines r.ts).tail, isHeading l = false
  targetCite : ∀ cite, r.targetCite = some cite →
    ∀ l ∈ (breakLines cite).tail, isHeading l = false
  fence : ∀ l ∈ (breakLines r.ts).tail, ¬ "---".toList <+: l

lemma isHeading_iff {l : Str} : isHeading l = true ↔ "## bi_".toList <+: l :=
  List.isPrefixOf_iff_prefix

lemma isHeading_eq_false_iff {l : Str} : isHeading l = false ↔ ¬ "## bi_".toList <+: l := by
  rw [← isHeading_iff, Bool.not_eq_true]

lemma headings_append_cons (a b : Str) : headings (a ++ '\n' :: b) = headings a ++ headings b := by
  rw [headings, breakLines_append_cons, List.filter_append, headings, headings]

lemma headings_eq_nil_iff {s : Str} : headings s = [] ↔ ∀ l ∈ breakLines s, isHeading l = false := by
  simp only [headings, List.filter_eq_nil_iff, Bool.not_eq_true]

/-! ## Pasted text -/

/-- No line but the first looks like a heading. -/
def Quiet (s : Str) : Prop := ∀ l ∈ (breakLines s).tail, isHeading l = false

lemma Quiet.append {a b : Str} (ha : Quiet a) (hb : Quiet b)
    (hmeet : ∀ m p, p <+: b → isHeading m = false → isHeading (m ++ p) = false) :
    Quiet (a ++ b) := by
  intro l hl
  rcases mem_tail_breakLines_append hl with hl | hl | ⟨m, hm, p, hp, rfl⟩
  · exact hb l hl
  · exact ha l hl
  · exact hmeet m p hp (ha m hm)

/-- Where a text goes on with a character that a heading does not start with. -/
lemma Quiet.append_cons {a b : Str} {c : Char} (ha : Quiet a) (hb : Quiet (c :: b))
    (hc : c ∉ "## bi_".toList) : Quiet (a ++ c :: b) := by
  refine ha.append hb ?_
  intro m p hp hm
  cases p with
  | nil => rwa [List.append_nil]
  | cons d p =>
    obtain ⟨rfl, -⟩ := List.cons_prefix_cons.mp hp
    rw [isHeading_eq_false_iff] at hm ⊢
    exact fun h => hm (prefix_of_append_cons hc h)

lemma quiet_of_notMem {s : Str} (h : '\n' ∉ s) : Quiet s := by
  intro l hl
  rw [breakLines_of_notMem h] at hl
  cases hl

/-- Text in front on the same line does not matter. -/
lemma quiet_append_left_iff {a b : Str} (h : '\n' ∉ a) : Quiet (a ++ b) ↔ Quiet b := by
  rw [Quiet, breakLines_append_of_notMem h, List.tail_cons, Quiet]

/-- The first line decides, when the others are quiet. -/
lemma Quiet.headings_eq {s : Str} (h : Quiet s) :
    headings s = if isHeading s then [(breakLines s).head (breakLines_ne_nil s)] else [] := by
  obtain ⟨l, ls, hls⟩ := List.exists_cons_of_ne_nil (breakLines_ne_nil s)
  have hrest : ls.filter isHeading = [] := by
    rw [List.filter_eq_nil_iff]
    intro m hm
    rw [h m (by simpa [hls] using hm)]
    exact Bool.false_ne_true
  have hfirst : isHeading s = isHeading l := by
    have hjoin := intercalate_breakLines s
    obtain ⟨t, ht⟩ := Search.exists_intercalate_cons '\n' l ls
    rw [hls, ht] at hjoin
    rw [Bool.eq_iff_iff, isHeading_iff, isHeading_iff, ← hjoin]
    cases t with
    | nil => rw [List.append_nil]
    | cons c t =>
      have hc : c = '\n' := by
        cases ls with
        | nil => simp at ht
        | cons m ls =>
          simp only [List.intercalate_cons_cons, List.append_assoc, List.singleton_append,
            List.append_cancel_left_eq, List.cons.injEq] at ht
          exact ht.1.symm
      rw [hc]
      exact ⟨prefix_of_append_cons (by decide), fun h => h.trans (List.prefix_append _ _)⟩
  simp only [headings, hls, List.head_cons, hfirst]
  rw [List.filter_cons, hrest]

/-! ## The section -/

/-- The heading of a row. -/
def headLine (r : BriefingRow) : Str :=
  "## ".toList ++ briefingItemId r.id ++ " — ".toList ++ (r.topic ++
    ' ' :: '[' :: ((r.kind.getD .observation).asStr ++ [']']))

/-- The line on where a note came from. -/
def fromText (r : BriefingRow) : Str :=
  "*from ".toList ++ r.sourceKind.asStr ++ " (ref: `".toList ++ (r.sourceRef ++
    '`' :: (", at ".toList ++ (r.ts ++ [')', '*'])))

/-- The line on what a note is about. -/
def citeText (cite : Str) : Str := "*→ <".toList ++ (cite ++ ['>', '*'])

/-- A section in its lines. -/
lemma renderSection_eq (r : BriefingRow) : ∃ body, (body = r.body ∨ body = r.body ++ ['\n']) ∧
    renderSection r = '\n' :: (headLine r ++ '\n' :: '\n' :: (fromText r ++ '\n' ::
      (r.targetCite.elim [] (fun cite => '\n' :: (citeText cite ++ ['\n'])) ++ '\n' ::
        (body ++ '\n' :: "---\n".toList)))) := by
  delta renderSection headLine fromText citeText
  by_cases hbody : r.body.getLast? = some '\n'
  · refine ⟨r.body, Or.inl rfl, ?_⟩
    simp only [if_pos hbody, List.append_assoc, List.cons_append, List.nil_append]
  · refine ⟨r.body ++ ['\n'], Or.inr rfl, ?_⟩
    simp only [if_neg hbody, List.append_assoc, List.cons_append, List.nil_append]

lemma notMem_briefingItemId {c : Char} (hc : c.isDigit = false) (hbi : c ∉ "bi_".toList) (id : ℕ) :
    c ∉ briefingItemId id := by
  delta briefingItemId
  rw [List.mem_append, not_or]
  refine ⟨hbi, fun hmem => ?_⟩
  have hdigit := Nat.isDigit_of_mem_toDigits (by decide) (by decide) hmem
  rw [hc] at hdigit
  cases hdigit

lemma notMem_asStr (k : BriefingKind) : '\n' ∉ k.asStr := by cases k <;> decide

lemma notMem_asStr_sourceKind (k : BriefingSourceKind) : '\n' ∉ k.asStr := by cases k <;> decide

variable {r : BriefingRow} (hr : r.Plain)

include hr in
lemma quiet_headLine : Quiet (headLine r) := by
  have hstart : '\n' ∉ "## ".toList ++ briefingItemId r.id ++ " — ".toList := by
    have hid := notMem_briefingItemId (c := '\n') (by decide) (by decide) r.id
    simp [hid]
  have hend : '\n' ∉ ' ' :: '[' :: ((r.kind.getD .observation).asStr ++ [']']) := by
    have hkind := notMem_asStr (r.kind.getD .observation)
    simp [hkind]
  delta headLine
  rw [quiet_append_left_iff hstart]
  refine Quiet.append hr.topic (quiet_of_notMem hend) ?_
  intro m p hp hm
  obtain ⟨u, hu⟩ := hp
  rw [isHeading_eq_false_iff] at hm ⊢
  intro h
  -- a heading has no bracket, and its last character is no blank
  have hlong : "## bi_".toList <+: (m ++ [' ']) ++ '[' :: ((r.kind.getD .observation).asStr ++ [']'])
      := by
    have hwhole : m ++ p <+: (m ++ [' ']) ++ '[' :: ((r.kind.getD .observation).asStr ++ [']']) :=
      ⟨u, by rw [List.append_assoc, hu, List.append_assoc, List.singleton_append]⟩
    exact h.trans hwhole
  rcases List.prefix_concat_iff.mp (prefix_of_append_cons (by decide) hlong) with heq | hshort
  · have hlast := congrArg List.getLast? heq
    simp at hlast
  · exact hm hshort

include hr in
lemma quiet_fromText : Quiet (fromText r) := by
  have hstart : '\n' ∉ "*from ".toList ++ r.sourceKind.asStr ++ " (ref: `".toList := by
    have hkind := notMem_asStr_sourceKind r.sourceKind
    simp [hkind]
  have hend : Quiet [')', '*'] := quiet_of_notMem (by decide)
  have hts : Quiet (r.ts ++ [')', '*']) := Quiet.append_cons hr.ts hend (by decide)
  have hmiddle : '\n' ∉ '`' :: ", at ".toList := by decide
  have hat : Quiet ('`' :: (", at ".toList ++ (r.ts ++ [')', '*']))) := by
    rw [← List.cons_append, quiet_append_left_iff hmiddle]
    exact hts
  unfold fromText
  rw [quiet_append_left_iff hstart]
  exact Quiet.append_cons hr.sourceRef hat (by decide)

include hr in
lemma quiet_citeText {cite : Str} (h : r.targetCite = some cite) : Quiet (citeText cite) := by
  have hstart : '\n' ∉ "*→ <".toList := by decide
  have hend : Quiet ['>', '*'] := quiet_of_notMem (by decide)
  unfold citeText
  rw [quiet_append_left_iff hstart]
  exact Quiet.append_cons (hr.targetCite cite h) hend (by decide)

lemma isHeading_headLine (r : BriefingRow) : isHeading (headLine r) = true := by
  rw [isHeading_iff]
  delta headLine briefingItemId
  have hsplit : "## bi_".toList = "## ".toList ++ "bi_".toList := rfl
  rw [hsplit, List.append_assoc, List.append_assoc, List.append_assoc, List.prefix_append_right_inj]
  exact List.prefix_append _ _

lemma isHeading_cons_of_ne {c : Char} (hc : c ≠ '#') (s : Str) : isHeading (c :: s) = false := by
  rw [isHeading_eq_false_iff]
  intro h
  have hsharp : "## bi_".toList = '#' :: "# bi_".toList := rfl
  rw [hsharp, List.cons_prefix_cons] at h
  exact hc h.1.symm

include hr in
/-- A section of plain texts has one heading, its own. -/
lemma headings_renderSection (existing : Str) : headings (existing ++ renderSection r) =
    headings existing ++
      [(breakLines (headLine r)).head (breakLines_ne_nil (headLine r))] := by
  obtain ⟨body, hbody, heq⟩ := renderSection_eq r
  have hnil : headings [] = [] := rfl
  have hfence : headings "---\n".toList = [] := by decide
  have hhead : headings (headLine r) =
      [(breakLines (headLine r)).head (breakLines_ne_nil (headLine r))] := by
    rw [(quiet_headLine hr).headings_eq, isHeading_headLine, if_pos rfl]
  have hfrom : headings (fromText r) = [] := by
    have hstar : fromText r = '*' :: _ := rfl
    have hno : isHeading (fromText r) = false := by
      rw [hstar]
      exact isHeading_cons_of_ne (by decide) _
    rw [(quiet_fromText hr).headings_eq, hno, if_neg Bool.false_ne_true]
  have hcite : headings (r.targetCite.elim [] fun cite => '\n' :: (citeText cite ++ ['\n'])) =
      [] := by
    cases h : r.targetCite with
    | none => rfl
    | some cite =>
      have hstar : citeText cite = '*' :: _ := rfl
      have hno : isHeading (citeText cite) = false := by
        rw [hstar]
        exact isHeading_cons_of_ne (by decide) _
      have hline : headings (citeText cite) = [] := by
        rw [(quiet_citeText hr h).headings_eq, hno, if_neg Bool.false_ne_true]
      have hsplit := headings_append_cons [] (citeText cite ++ '\n' :: [])
      rw [headings_append_cons (citeText cite), hnil, hline] at hsplit
      exact hsplit
  have hbodies : headings body = [] := by
    have hplain := headings_eq_nil_iff.mpr hr.body
    rcases hbody with rfl | rfl
    · exact hplain
    · rw [headings_append_cons, hplain, hnil, List.append_nil]
  have hblank := headings_append_cons [] (fromText r ++ '\n' ::
      (r.targetCite.elim [] (fun cite => '\n' :: (citeText cite ++ ['\n'])) ++ '\n' ::
        (body ++ '\n' :: "---\n".toList)))
  rw [List.nil_append] at hblank
  rw [heq, headings_append_cons, headings_append_cons, hblank, headings_append_cons,
    headings_append_cons, headings_append_cons, hnil, hhead, hfrom, hcite, hbodies, hfence]
  simp

/-- The heading of a row is the heading of its id and of no other. -/
lemma headedBy_head_iff (id : ℕ) :
    headedBy id ((breakLines (headLine r)).head (breakLines_ne_nil (headLine r))) = true ↔
      id = r.id := by
  have hstart : '\n' ∉ "## ".toList ++ briefingItemId r.id ++ " — ".toList := by
    have hid := notMem_briefingItemId (c := '\n') (by decide) (by decide) r.id
    simp [hid]
  delta headLine
  simp only [breakLines_append_of_notMem hstart, List.head_cons]
  generalize List.head _ _ = rest
  have hassoc : "## ".toList ++ briefingItemId r.id ++ " — ".toList ++ rest =
      "## ".toList ++ (briefingItemId r.id ++ ' ' :: ("— ".toList ++ rest)) := by simp
  rw [headedBy, List.isPrefixOf_iff_prefix, hassoc, List.append_assoc,
    List.prefix_append_right_inj]
  constructor
  · rintro ⟨t, ht⟩
    have hblank : ∀ id, ' ' ∉ briefingItemId id := notMem_briefingItemId (by decide) (by decide)
    rw [List.append_assoc, List.singleton_append] at ht
    have hsame : briefingItemId id = briefingItemId r.id := by
      have hleft := Search.splitOnce_singleton (hblank id) t
      have hright := Search.splitOnce_singleton (hblank r.id) ("— ".toList ++ rest)
      rw [ht, hright] at hleft
      exact (Prod.mk.inj (Option.some.inj hleft)).1.symm
    have hdigits : Nat.toDigits 10 id = Nat.toDigits 10 r.id := List.append_cancel_left hsame
    rw [← Nat.ofDigitChars_ten_toDigits (n := id), hdigits, Nat.ofDigitChars_ten_toDigits]
  · rintro rfl
    exact (List.prefix_append_right_inj _).mpr ⟨"— ".toList ++ rest, rfl⟩

/-! ## The front matter -/

/-- The fence is found at the first line, the very first apart, that looks like one. -/
lemma firstAt_fence_iff {p : Str} : Search.FirstAt "\n---".toList p ↔
    ∀ l ∈ (breakLines p).tail, ¬ "---".toList <+: l := by
  have hneedle : "\n---".toList = '\n' :: "---".toList := rfl
  constructor
  · rintro hfirst l hl ⟨v, rfl⟩
    obtain ⟨u, w, rfl⟩ := exists_append_of_mem_tail hl
    have hend := hfirst u (v ++ w ++ "\n---".toList) (by rw [hneedle]; simp)
    rw [hneedle] at hend
    simp at hend
  · intro hlines u v huv
    rcases List.append_eq_append_iff.mp (by simpa using huv : p ++ "\n---".toList =
      u ++ ("\n---".toList ++ v)) with ⟨x, -, hx⟩ | ⟨x, rfl, hx⟩
    · have hlen := congrArg List.length hx
      simp only [List.length_append] at hlen
      exact List.length_eq_zero_iff.mp (by omega)
    · cases x with
      | nil => simpa using hx.symm
      | cons c x =>
        -- an occurrence that begins inside `p` begins a line there
        rw [hneedle, List.cons_append, List.cons_append, List.cons.injEq] at hx
        obtain ⟨rfl, hx⟩ := hx
        have hpre : "---".toList <+: x := by
          have hmore : "---".toList <+: x ++ '\n' :: "---".toList := ⟨v, hx⟩
          exact prefix_of_append_cons (by decide) hmore
        obtain ⟨y, rfl⟩ := hpre
        have hstart : '\n' ∉ "---".toList := by decide
        have hmem : "---".toList ++ (breakLines y).head (breakLines_ne_nil y) ∈
            (breakLines (u ++ '\n' :: ("---".toList ++ y))).tail := by
          rw [breakLines_append_cons, breakLines_append_of_notMem hstart,
            List.tail_append_of_ne_nil (breakLines_ne_nil u)]
          simp
        exact absurd (List.prefix_append _ _) (hlines _ hmem)

/-- Where the front matter of a document lies. -/
lemma locateFrontmatter_eq_some_iff {s before fm after : Str} :
    locateFrontmatter s = some (before, fm, after) ↔ ∃ p t,
      s = "---\n".toList ++ (p ++ '\n' :: ("---".toList ++ t)) ∧
        (∀ l ∈ (breakLines p).tail, ¬ "---".toList <+: l) ∧
          before = "---\n".toList ∧ fm = p ++ ['\n'] ∧ after = "---".toList ++ t := by
  have hneedle : "\n---".toList = '\n' :: "---".toList := rfl
  have hne : "\n---".toList ≠ [] := by decide
  simp only [locateFrontmatter, Option.bind_eq_bind, Option.pure_def, Option.bind_eq_some_iff,
    stripPrefix_eq_some_iff, Option.some.injEq, Prod.mk.injEq, Prod.exists,
    Search.splitOnce_eq_some_iff hne, firstAt_fence_iff]
  constructor
  · rintro ⟨_, rfl, p, t, ⟨rfl, hlines⟩, rfl, rfl, rfl⟩
    exact ⟨p, t, by simp [hneedle], hlines, rfl, rfl, rfl⟩
  · rintro ⟨p, t, rfl, hlines, rfl, rfl, rfl⟩
    exact ⟨_, rfl, p, t, ⟨by simp [hneedle], hlines⟩, rfl, rfl, rfl⟩

/-- The lines that `touchLines` leaves. -/
def touched (ts : Str) : Bool → List Str → List Str
  | _, [] => []
  | wroteLine, line :: rest =>
    if "last_updated:".toList <+: line ∧ wroteLine = false then
      breakLines ("last_updated: ".toList ++ ts) ++ touched ts true rest
    else line :: touched ts wroteLine rest

/-- They are terminated, each of them. -/
lemma touchLines_eq (ts : Str) (wroteLine : Bool) {ls : List Str} (hls : ls ≠ [])
    (hlines : ∀ l ∈ ls, '\n' ∉ l) : ∃ q, touchLines ts wroteLine ls = q ++ ['\n'] ∧
      breakLines q = touched ts wroteLine ls := by
  induction ls generalizing wroteLine with
  | nil => exact absurd rfl hls
  | cons line rest ih =>
    have hline := breakLines_of_notMem (hlines line (by simp))
    rw [touchLines, touched]
    rcases eq_or_ne rest [] with rfl | hrest
    · split_ifs
      · exact ⟨"last_updated: ".toList ++ ts, by simp [touchLines], by simp [touched]⟩
      · exact ⟨line, by simp [touchLines], by simp [touched, hline]⟩
    · have hrec := fun wroteLine => ih wroteLine hrest fun l hl => hlines l (by simp [hl])
      split_ifs
      · obtain ⟨q, hq, hbreak⟩ := hrec true
        refine ⟨"last_updated: ".toList ++ ts ++ '\n' :: q, by rw [hq]; simp, ?_⟩
        rw [breakLines_append_cons, hbreak]
      · obtain ⟨q, hq, hbreak⟩ := hrec wroteLine
        refine ⟨line ++ '\n' :: q, by rw [hq]; simp, ?_⟩
        rw [breakLines_append_cons, hbreak, hline]
        rfl

lemma mem_touched {ts : Str} {wroteLine : Bool} {ls : List Str} {l : Str}
    (h : l ∈ touched ts wroteLine ls) : l ∈ ls ∨ l ∈ breakLines ("last_updated: ".toList ++ ts) := by
  induction ls generalizing wroteLine with
  | nil => cases h
  | cons line rest ih =>
    rw [touched] at h
    split_ifs at h
    · rcases List.mem_append.mp h with h | h
      · exact Or.inr h
      · exact (ih h).imp_left fun hmem => List.mem_cons_of_mem line hmem
    · rcases List.mem_cons.mp h with rfl | h
      · exact Or.inl List.mem_cons_self
      · exact (ih h).imp_left fun hmem => List.mem_cons_of_mem line hmem

/-- No line moves to the front. -/
lemma mem_tail_touched {ts : Str} {wroteLine : Bool} {ls : List Str} {l : Str}
    (h : l ∈ (touched ts wroteLine ls).tail) :
    l ∈ ls.tail ∨ l ∈ breakLines ("last_updated: ".toList ++ ts) := by
  cases ls with
  | nil => cases h
  | cons line rest =>
    rw [touched] at h
    split_ifs at h
    · rw [List.tail_append_of_ne_nil (breakLines_ne_nil _), List.mem_append] at h
      rcases h with h | h
      · exact Or.inr (List.mem_of_mem_tail h)
      · exact mem_touched h
    · exact mem_touched h

lemma sublist_touched (ts : Str) (wroteLine : Bool) (ls : List Str) :
    (ls.filter fun l => !isLastUpdated l).Sublist (touched ts wroteLine ls) := by
  induction ls generalizing wroteLine with
  | nil => exact List.Sublist.refl _
  | cons line rest ih =>
    rw [touched, List.filter_cons]
    split_ifs with hkeep hdate hdate
    · have hold : isLastUpdated line = true := List.isPrefixOf_iff_prefix.mpr hdate.1
      simp [hold] at hkeep
    · exact (ih wroteLine).cons_cons line
    · exact (ih true).trans (List.sublist_append_right _ _)
    · exact (ih wroteLine).cons line

/-- The lines of the last update are no headings and no fences. -/
lemma plain_lastUpdated {ts l : Str} (hheading : ∀ l ∈ (breakLines ts).tail, isHeading l = false)
    (hfence : ∀ l ∈ (breakLines ts).tail, ¬ "---".toList <+: l)
    (h : l ∈ breakLines ("last_updated: ".toList ++ ts)) :
    isHeading l = false ∧ ¬ "---".toList <+: l := by
  have hstart : '\n' ∉ "last_updated: ".toList := by decide
  rw [breakLines_append_of_notMem hstart, List.mem_cons] at h
  rcases h with rfl | h
  · have hcons : "last_updated: ".toList = 'l' :: "ast_updated: ".toList := rfl
    rw [hcons, List.cons_append]
    refine ⟨isHeading_cons_of_ne (by decide) _, fun hpre => ?_⟩
    have hdash : "---".toList = '-' :: "--".toList := rfl
    rw [hdash, List.cons_prefix_cons] at hpre
    exact absurd hpre.1 (by decide)
  · exact ⟨hheading l h, hfence l h⟩

/-! ## The first document -/

/-- A line that is no heading adds none. -/
lemma headings_of_line {s : Str} (hline : '\n' ∉ s) (h : isHeading s = false) : headings s = [] := by
  rw [headings_eq_nil_iff, breakLines_of_notMem hline]
  simpa using h

/-- The document of an inbox without notes has no heading. -/
lemma headings_initialBriefingDoc (wikiId : WikiId) {now : Str} (hnow : '\n' ∉ now) :
    headings (initialBriefingDoc wikiId now) = [] := by
  have hid : '\n' ∉ wikiId.val := by
    intro hmem
    have hslug := (checkSlug_eq_ok_iff.mp wikiId.wellFormed).2.2.2.2 _ hmem
    exact absurd hslug (by decide)
  have htype : headings "---\ntype: session_briefing".toList = [] := by decide
  have hfence : headings "---\n".toList = [] := by decide
  have hrest : headings ("\nREM (Briefing dispatcher), other consumers, and the dashboard\n" ++
      "append items below. The smart\nconsumer reads them at `smart_bootstrap` and rotates " ++
      "this file\nto `_briefing.archive.md` after triage.\n").toList = [] := by decide +kernel
  have hwiki : headings ("wiki_id: ".toList ++ wikiId.val) = [] := by
    have hcons : "wiki_id: ".toList = 'w' :: "iki_id: ".toList := rfl
    refine headings_of_line (by simp [hid]) ?_
    rw [hcons, List.cons_append]
    exact isHeading_cons_of_ne (by decide) _
  have hupdated : headings ("last_updated: ".toList ++ now) = [] := by
    have hcons : "last_updated: ".toList = 'l' :: "ast_updated: ".toList := rfl
    refine headings_of_line (by simp [hnow]) ?_
    rw [hcons, List.cons_append]
    exact isHeading_cons_of_ne (by decide) _
  have htitle : headings ("# Session briefing for `".toList ++ wikiId.val ++ ['`']) = [] := by
    have hcons : "# Session briefing for `".toList = '#' :: ' ' :: "Session briefing for `".toList :=
      rfl
    have hsharps : "## bi_".toList = '#' :: '#' :: " bi_".toList := rfl
    refine headings_of_line (by simp [hid]) ?_
    rw [hcons, isHeading_eq_false_iff, hsharps, List.cons_append, List.cons_append, List.cons_append,
      List.cons_append, List.cons_prefix_cons, List.cons_prefix_cons]
    exact fun h => absurd h.2.1 (by decide)
  unfold initialBriefingDoc
  simp only [headings_append_cons, htype, hwiki, hupdated, hfence, htitle, hrest, List.append_nil]

/-! ## The whole document -/

/-- A front matter that a note keeps: no line of it looks like a heading, and none ends in a
carriage return. -/
def Steady (existing : Str) : Prop :=
  ∀ l ∈ frontMatter existing, isHeading l = false ∧ l.getLast? ≠ some '\r'

/-- A document with a front matter, and the same touched. -/
lemma touchLastUpdated_cases (existing ts : Str) :
    (locateFrontmatter existing = none ∧ touchLastUpdated existing ts = existing) ∨ ∃ p q t,
      existing = "---\n".toList ++ (p ++ '\n' :: ("---".toList ++ t)) ∧
        (∀ l ∈ (breakLines p).tail, ¬ "---".toList <+: l) ∧
          frontMatter existing = (breakLines p).map stripCr ∧
            touchLastUpdated existing ts = "---\n".toList ++ (q ++ '\n' :: ("---".toList ++ t)) ∧
              breakLines q = touched ts false ((breakLines p).map stripCr) := by
  cases hloc : locateFrontmatter existing with
  | none => exact Or.inl ⟨rfl, by rw [touchLastUpdated, hloc]⟩
  | some pieces =>
    obtain ⟨before, fm, after⟩ := pieces
    obtain ⟨p, t, hexisting, hlines, hbefore, rfl, hafter⟩ := locateFrontmatter_eq_some_iff.mp hloc
    have hne : (breakLines p).map stripCr ≠ [] := by simp [breakLines_ne_nil]
    obtain ⟨q, hq, hbreak⟩ := touchLines_eq ts false hne fun l hl => by
        obtain ⟨m, hm, rfl⟩ := List.mem_map.mp hl
        have hfree := notMem_of_mem_breakLines hm
        rcases stripCr_eq m with heq | heq
        · rwa [← heq]
        · rw [heq, List.mem_append, not_or] at hfree
          exact hfree.1
    refine Or.inr ⟨p, q, t, hexisting, hlines, ?_, ?_, hbreak⟩
    · rw [frontMatter, hloc]
      exact lines_append_newline p
    · rw [touchLastUpdated, hloc]
      dsimp only
      rw [lines_append_newline, hq, hbefore, hafter]
      simp

variable {existing : Str} (hfm : Steady existing)

include hr hfm in
/-- Touching the front matter changes nothing below it. -/
lemma below_touchLastUpdated : headings (touchLastUpdated existing r.ts) = headings existing ∧
    fromLine isHeading (touchLastUpdated existing r.ts) = fromLine isHeading existing := by
  rcases touchLastUpdated_cases existing r.ts with ⟨-, heq⟩ | ⟨p, q, t, hexisting, -, hfront, htouch,
    hq⟩
  · rw [heq]
    exact ⟨rfl, rfl⟩
  have hp : ∀ l ∈ breakLines p, isHeading l = false := by
    intro l hl
    have hstripped := (hfm (stripCr l) (by rw [hfront]; exact List.mem_map_of_mem hl)).1
    rw [isHeading_eq_false_iff] at hstripped ⊢
    rwa [← prefix_stripCr_iff (by decide)]
  have hqs : ∀ l ∈ breakLines q, isHeading l = false := by
    intro l hl
    rw [hq] at hl
    rcases mem_touched hl with hl | hl
    · exact (hfm l (by rw [hfront]; exact hl)).1
    · exact (plain_lastUpdated hr.ts hr.fence hl).1
  have hfence : "---\n".toList = "---".toList ++ ['\n'] := rfl
  have hdoc : ∀ x : Str, breakLines ("---\n".toList ++ (x ++ '\n' :: ("---".toList ++ t))) =
      breakLines "---".toList ++ (breakLines x ++ breakLines ("---".toList ++ t)) := by
    intro x
    rw [hfence, List.append_assoc, List.singleton_append, breakLines_append_cons,
      breakLines_append_cons]
  have hopen : ∀ l ∈ breakLines "---".toList, isHeading l = false := by decide
  have hskip : ∀ x : Str, (∀ l ∈ breakLines x, isHeading l = false) →
      headings ("---\n".toList ++ (x ++ '\n' :: ("---".toList ++ t))) =
          headings ("---".toList ++ t) ∧
        fromLine isHeading ("---\n".toList ++ (x ++ '\n' :: ("---".toList ++ t))) =
          fromLine isHeading ("---".toList ++ t) := by
    intro x hx
    constructor
    · have hnil : (breakLines x).filter isHeading = [] := headings_eq_nil_iff.mpr hx
      have hnil' : (breakLines "---".toList).filter isHeading = [] := headings_eq_nil_iff.mpr hopen
      rw [headings, hdoc, List.filter_append, List.filter_append, hnil, hnil', headings]
      rfl
    · rw [fromLine, hdoc, List.dropWhile_append_of_pos (by simpa using hopen),
        List.dropWhile_append_of_pos (by simpa using hx), fromLine]
  rw [htouch, hexisting, (hskip q hqs).1, (hskip p hp).1, (hskip q hqs).2, (hskip p hp).2]
  exact ⟨rfl, rfl⟩

include hr hfm in
/-- One heading is added, at the end. -/
lemma headings_appended : headings (appended existing r) = headings existing ++
    [(breakLines (headLine r)).head (breakLines_ne_nil (headLine r))] := by
  rw [appended, headings_renderSection hr, (below_touchLastUpdated hr hfm).1]

include hr hfm in
/-- What stands from the first heading on stays. -/
lemma fromLine_appended : fromLine isHeading existing <+: fromLine isHeading (appended existing r)
    := by
  obtain ⟨body, -, heq⟩ := renderSection_eq r
  rw [appended, heq, ← (below_touchLastUpdated hr hfm).2]
  exact fromLine_prefix_append isHeading _ _

include hr hfm in
/-- The front matter keeps its lines, those on the last update apart. -/
lemma frontMatter_appended : ((frontMatter existing).filter fun l => !isLastUpdated l).Sublist
    (frontMatter (appended existing r)) := by
  rcases touchLastUpdated_cases existing r.ts with ⟨hnone, -⟩ | ⟨p, q, t, hexisting, hlines, hfront,
    htouch, hq⟩
  · rw [frontMatter, hnone]
    exact List.nil_sublist _
  have hqlines : ∀ l ∈ (breakLines q).tail, ¬ "---".toList <+: l := by
    intro l hl
    rw [hq] at hl
    rcases mem_tail_touched hl with hl | hl
    · rw [← List.map_tail] at hl
      obtain ⟨m, hm, rfl⟩ := List.mem_map.mp hl
      rw [prefix_stripCr_iff (by decide)]
      exact hlines m hm
    · exact (plain_lastUpdated hr.ts hr.fence hl).2
  have hloc : locateFrontmatter (appended existing r) = some ("---\n".toList, q ++ ['\n'],
      "---".toList ++ (t ++ renderSection r)) :=
    locateFrontmatter_eq_some_iff.mpr ⟨q, t ++ renderSection r, by
      rw [appended, htouch]
      simp, hqlines, rfl, rfl, rfl⟩
  have hafter : frontMatter (appended existing r) =
      (touched r.ts false (frontMatter existing)).map stripCr := by
    rw [frontMatter, hloc, hfront, ← hq]
    exact lines_append_newline q
  have hsame : ((frontMatter existing).filter fun l => !isLastUpdated l).map stripCr =
      (frontMatter existing).filter fun l => !isLastUpdated l := by
    have hid : ∀ l ∈ (frontMatter existing).filter fun l => !isLastUpdated l, stripCr l = id l :=
      fun l hl => stripCr_of_getLast? (hfm l (List.mem_filter.mp hl).1).2
    rw [List.map_congr_left hid, List.map_id]
  rw [hafter, ← hsame]
  exact (sublist_touched r.ts false (frontMatter existing)).map stripCr

end Briefing

end Mwe
