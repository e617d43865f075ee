import MweCore.Document.Segments
import MweCore.Lib.Effect
import MweCore.Lib.Table

/-!
# The section index of a smart wiki

The pages of a smart wiki are indexed by content: `sectionIndexPage` cuts a page into sections,
drops the ones whose text came before, and puts the rest in `wiki_sections` by position, the tail
deleted.  A page whose stored positions and texts are the wanted ones is left as it is
(`smartPageInSync`), and a text that is stored already keeps its embedding.

Two things are promised of the stored rows and hold for most pages.  They are those that a run on
an empty table writes, but rows that are left as they are keep their heading and their wiki; and
they are as many as `pageShape` says, but `pageShape` counts the sections before the ones that are
said twice are dropped.  `section_index_agrees_iff` is the exact condition.
-/

namespace Mwe

open Str Sql

namespace Document

/-- The chunking policy of the section index; the threshold for a merge is the default one. -/
def DocumentPolicy.forSections {S : Type*} (mergeThreshold : S) : DocumentPolicy S :=
  ⟨1200, 2000, mergeThreshold⟩

/-- What the index will do to a page. -/
structure PageShape where
  chars : ℕ := 0
  sections : ℕ := 0
  sectionsSharingAHeading : ℕ := 0
  oversizeBlocks : ℕ := 0
  oversizeChars : ℕ := 0
  longestBlockChars : ℕ := 0
  deriving DecidableEq

/-- Measure what the index will do to a text. -/
def pageShape {S : Type*} (text : Str) (policy : DocumentPolicy S) : PageShape :=
  let lens := (proseBlocks text).map fun block => block.body.length
  let oversize := lens.filter fun n => policy.segmentMaxChars < n
  let segments := segmentProse policy text
  { chars := text.length
    sections := segments.length
    sectionsSharingAHeading :=
      ((segments.zip segments.tail).filter fun w => w.1.heading == w.2.heading).length
    oversizeBlocks := oversize.length
    oversizeChars := oversize.sum
    longestBlockChars := lens.foldl max 0 }

end Document

namespace Reindex

open Document

/-! ## Rows -/

/-- One row of `wiki_sections`; `E` is what its embedding is kept as. -/
structure SectionRow (E : Type*) where
  sourcePath : Str
  sectionOrd : ℕ
  wikiId : Str
  headingPath : Option Str
  text : Str
  embedding : E
  embeddingDim : ℕ
  createdAt : Str
  updatedAt : Str
  lastRecallAt : Option Str
  recallCount30d : ℕ
  deriving DecidableEq

/-- The primary key of `wiki_sections`. -/
def SectionRow.key {E : Type*} (r : SectionRow E) : Str × ℕ := (r.sourcePath, r.sectionOrd)

/-- The table `wiki_sections`, embeddings as bytes. -/
abbrev SectionTable := Table (SectionRow.key (E := List UInt8))

/-- A section about to be written; a number of its embedding is given by its bits. -/
structure NewSection where
  wikiId : Str
  sourcePath : Str
  sectionOrd : ℕ
  headingPath : Option Str
  text : Str
  embedding : List UInt32
  deriving DecidableEq

/-- The bytes of a vector, each number from its lowest byte on. -/
def encodeEmbedding (v : List UInt32) : List UInt8 :=
  v.flatMap fun (x : UInt32) =>
    [x.toUInt8, (x >>> 8).toUInt8, (x >>> 16).toUInt8, (x >>> 24).toUInt8]

/-- The vector some bytes are; `none` when their number is no multiple of four. -/
def decodeEmbedding : List UInt8 → Option (List UInt32)
  | [] => some []
  | a :: b :: c :: d :: rest =>
    (decodeEmbedding rest).map fun v =>
      (a.toUInt32 ||| (b.toUInt32 <<< 8) ||| (c.toUInt32 <<< 16) ||| (d.toUInt32 <<< 24)) :: v
  | _ => none

/-- Why the indexer fails. -/
inductive SectionError where
  /-- The length of a stored embedding. -/
  | invalidEmbeddingBlob (len : ℕ)
  | embed (e : Str)
  deriving DecidableEq

/-- Decode the embedding of a row. -/
def decodeSection (raw : SectionRow (List UInt8)) :
    Except SectionError (SectionRow (List UInt32)) :=
  match decodeEmbedding raw.embedding with
  | some embedding => .ok { raw with embedding }
  | none => .error (.invalidEmbeddingBlob raw.embedding.length)

/-- The rows of one page, ordered by position. -/
def pageRows (t : SectionTable) (sourcePath : Str) : List (SectionRow (List UInt8)) :=
  (t.rows.filter fun r => r.sourcePath = sourcePath).insertionSort fun a b =>
    a.sectionOrd ≤ b.sectionOrd

/-- Every section of one page, ordered by position. -/
def findPageSections (t : SectionTable) (sourcePath : Str) :
    Except SectionError (List (SectionRow (List UInt32))) :=
  (pageRows t sourcePath).mapM decodeSection

/-! ## Writing -/

/-- The row a section is inserted as. -/
def NewSection.row (sec : NewSection) (now : Str) : SectionRow (List UInt8) where
  sourcePath := sec.sourcePath
  sectionOrd := sec.sectionOrd
  wikiId := sec.wikiId
  headingPath := sec.headingPath
  text := sec.text
  embedding := encodeEmbedding sec.embedding
  embeddingDim := sec.embedding.length
  createdAt := now
  updatedAt := now
  lastRecallAt := none
  recallCount30d := 0

/-- What an upsert makes of the row that has the position. -/
def NewSection.over (sec : NewSection) (now : Str) (r : SectionRow (List UInt8)) :
    SectionRow (List UInt8) :=
  { r with
    wikiId := sec.wikiId
    headingPath := sec.headingPath
    embedding := encodeEmbedding sec.embedding
    embeddingDim := sec.embedding.length
    updatedAt := now
    lastRecallAt := if r.text = sec.text then r.lastRecallAt else none
    recallCount30d := if r.text = sec.text then r.recallCount30d else 0
    text := sec.text }

/-- Upsert one section. -/
def upsertSection (now : Str) (t : SectionTable) (sec : NewSection) : SectionTable :=
  t.upsert (sec.row now) (sec.over now) fun _ => rfl

/-- Whether a row is one of the page's from a position on. -/
def isTail (sourcePath : Str) (tail : ℕ) (r : SectionRow (List UInt8)) : Bool :=
  decide (r.sourcePath = sourcePath) && decide (tail ≤ r.sectionOrd)

/-- Replace a page's sections: the table, the number of upserts and of rows dropped. -/
def replacePageSections (now : Str) (t : SectionTable) (sourcePath : Str)
    (sections : List NewSection) : SectionTable × ℕ × ℕ :=
  let written := sections.foldl (upsertSection now) t
  (written.delete (isTail sourcePath sections.length), sections.length,
    (written.rows.filter (isTail sourcePath sections.length)).length)

/-! ## The sweep over one page -/

/-- Section text for one segment: the heading chain prefixes the body. -/
def segmentText (seg : Segment) : Str :=
  match seg.heading with
  | some h => if h.isEmpty then seg.content else h ++ ['\n', '\n'] ++ seg.content
  | none => seg.content

/-- Whether a page's stored sections already match the desired ones, position by position. -/
def smartPageInSync {E : Type*} (existing : List (SectionRow E)) (desired : List Str) : Bool :=
  existing.length == desired.length &&
    (existing.zipIdx.all fun r => r.1.sectionOrd == r.2) &&
    ((existing.zip desired).all fun r => r.1.text == r.2)

/-- Append one segment's text and heading, unless the text came before. -/
def desireSegment (desired : List (Str × Option Str)) (seg : Segment) : List (Str × Option Str) :=
  let text := segmentText seg
  if desired.any fun d => d.1 == text then desired
  else desired ++ [(text, seg.heading.filter fun h => !h.isEmpty)]

/-- The texts and headings a page should be stored as. -/
def desiredSections {S : Type*} (policy : DocumentPolicy S) (raw : Str) :
    List (Str × Option Str) :=
  (segmentProse policy raw).foldl desireSegment []

/-- What the sweep over one page did. -/
structure ReindexFileReport where
  orphaned : ℕ := 0
  inserted : ℕ := 0
  deriving DecidableEq

/-- The embedding of a section: the stored one of a row with its text, else a new one. -/
def sectionEmbedding (embed : Str → Except Str (List UInt32))
    (existing : List (SectionRow (List UInt32))) (text : Str) :
    Except SectionError (List UInt32) :=
  -- a later row of the page takes an earlier one's place among the stored vectors
  match existing.reverse.find? fun r => r.text = text with
  | some r => .ok r.embedding
  | none =>
    match embed text with
    | .ok v => .ok v
    | .error e => .error (.embed e)

/-- The section of one position. -/
def newSection (embed : Str → Except Str (List UInt32))
    (existing : List (SectionRow (List UInt32))) (sourcePath wikiId : Str)
    (d : (Str × Option Str) × ℕ) : Except SectionError NewSection :=
  (sectionEmbedding embed existing d.1.1).map fun embedding =>
    { wikiId, sourcePath, sectionOrd := d.2, headingPath := d.1.2, text := d.1.1, embedding }

/-- The smart-wiki half of the reindex sweep; `policy` is the one for sections. -/
def sectionIndexPage {S : Type*} (policy : DocumentPolicy S)
    (embed : Str → Except Str (List UInt32)) (now sourcePath wikiId raw : Str)
    (report : ReindexFileReport) (t : SectionTable) :
    Except SectionError (SectionTable × ReindexFileReport) := do
  let desired := desiredSections policy raw
  let existing ← findPageSections t sourcePath
  if smartPageInSync existing (desired.map Prod.fst) then pure (t, report)
  else
    let sections ← desired.zipIdx.mapM (newSection embed existing sourcePath wikiId)
    let (t, upserted, dropped) := replacePageSections now t sourcePath sections
    pure (t, { orphaned := report.orphaned + dropped, inserted := report.inserted + upserted })

/-! ## What is stored after a write -/

/-- What of a stored section depends on the page alone. -/
structure ShownSection where
  sectionOrd : ℕ
  text : Str
  headingPath : Option Str
  wikiId : Str
  deriving DecidableEq

/-- What is shown of a row. -/
def shown {E : Type*} (r : SectionRow E) : ShownSection :=
  ⟨r.sectionOrd, r.text, r.headingPath, r.wikiId⟩

/-- What is shown of a section once it is stored. -/
def NewSection.shown (sec : NewSection) : ShownSection :=
  ⟨sec.sectionOrd, sec.text, sec.headingPath, sec.wikiId⟩

lemma get?_upsertSection (now : Str) (t : SectionTable) (sec : NewSection) (k : Str × ℕ) :
    (upsertSection now t sec).get? k =
      if (sec.sourcePath, sec.sectionOrd) = k then
        some ((t.get? k).elim (sec.row now) (sec.over now))
      else t.get? k :=
  Table.get?_upsert k

/-- Writing sections leaves the rows of other positions alone. -/
lemma get?_foldl_upsert_of_ne (now : Str) {sections : List NewSection} {k : Str × ℕ}
    (hk : ∀ sec ∈ sections, (sec.sourcePath, sec.sectionOrd) ≠ k) (t : SectionTable) :
    (sections.foldl (upsertSection now) t).get? k = t.get? k := by
  induction sections generalizing t with
  | nil => rfl
  | cons sec sections ih =>
    rw [List.foldl_cons, ih (fun s hs => hk s (List.mem_cons_of_mem sec hs)), get?_upsertSection,
      if_neg (hk sec List.mem_cons_self)]

/-- Every section that is written stands at its position. -/
lemma get?_foldl_upsert (now : Str) {sections : List NewSection}
    (hnodup : (sections.map fun sec => (sec.sourcePath, sec.sectionOrd)).Nodup) {sec : NewSection}
    (hsec : sec ∈ sections) (t : SectionTable) :
    ∃ r, (sections.foldl (upsertSection now) t).get? (sec.sourcePath, sec.sectionOrd) = some r ∧
      shown r = sec.shown := by
  induction sections generalizing t with
  | nil => exact absurd hsec List.not_mem_nil
  | cons head sections ih =>
    rw [List.map_cons, List.nodup_cons] at hnodup
    rw [List.foldl_cons]
    rcases List.mem_cons.mp hsec with rfl | hsec
    · have hother : ∀ s ∈ sections,
          (s.sourcePath, s.sectionOrd) ≠ (sec.sourcePath, sec.sectionOrd) :=
        fun s hs heq => hnodup.1 (heq ▸ List.mem_map_of_mem hs)
      rw [get?_foldl_upsert_of_ne now hother, get?_upsertSection, if_pos rfl]
      refine ⟨_, rfl, ?_⟩
      have hkey : ∀ r ∈ t.get? (sec.sourcePath, sec.sectionOrd), r.sectionOrd = sec.sectionOrd :=
        fun r hr => congrArg Prod.snd (Table.get?_eq_some_iff.mp hr).2
      cases hget : t.get? (sec.sourcePath, sec.sectionOrd) with
      | none => rfl
      | some r => simp [shown, NewSection.shown, NewSection.over, hkey r hget]
    · exact ih hnodup.2 hsec _

/-- The rows of a page are the rows of the table with its path. -/
lemma mem_pageRows_iff {t : SectionTable} {sourcePath : Str} {r : SectionRow (List UInt8)} :
    r ∈ pageRows t sourcePath ↔ t.get? (sourcePath, r.sectionOrd) = some r := by
  rw [Table.get?_eq_some_iff, Table.mem_iff, pageRows, List.mem_insertionSort, List.mem_filter,
    SectionRow.key]
  simp

/-- The rows of a page stand in the order of their positions, no two at one. -/
lemma pairwise_pageRows (t : SectionTable) (sourcePath : Str) :
    (pageRows t sourcePath).Pairwise fun a b => a.sectionOrd < b.sectionOrd := by
  have hle : (pageRows t sourcePath).Pairwise fun a b => a.sectionOrd ≤ b.sectionOrd :=
    List.pairwise_insertionSort (fun a b : SectionRow (List UInt8) => a.sectionOrd ≤ b.sectionOrd) _
  have hnodup : (pageRows t sourcePath).Nodup := by
    refine (List.perm_insertionSort _ _).nodup_iff.mpr (List.Nodup.filter _ ?_)
    exact List.Nodup.of_map _ t.nodup
  refine (hle.and hnodup).imp_of_mem ?_
  rintro a b ha hb ⟨hle, hne⟩
  refine lt_of_le_of_ne hle fun heq => hne ?_
  have hb' := mem_pageRows_iff.mp hb
  rw [← heq, mem_pageRows_iff.mp ha] at hb'
  exact Option.some.inj hb'

/-- After a write the page's rows are the sections that were written. -/
lemma shown_replacePageSections (now : Str) (t : SectionTable) {sourcePath : Str}
    {sections : List NewSection} (hpath : ∀ sec ∈ sections, sec.sourcePath = sourcePath)
    (hords : sections.map NewSection.sectionOrd = List.range sections.length) :
    (pageRows (replacePageSections now t sourcePath sections).1 sourcePath).map shown =
      sections.map NewSection.shown := by
  have hkeys : (sections.map fun sec => (sec.sourcePath, sec.sectionOrd)).Nodup := by
    have hsnd : (sections.map fun sec => (sec.sourcePath, sec.sectionOrd)).map Prod.snd =
        List.range sections.length := by rw [← hords, List.map_map]; rfl
    exact List.Nodup.of_map Prod.snd (by rw [hsnd]; exact List.nodup_range)
  have hget : ∀ k, (replacePageSections now t sourcePath sections).1.get? k =
      ((sections.foldl (upsertSection now) t).get? k).filter fun r =>
        !isTail sourcePath sections.length r := fun k => Table.get?_delete k
  have hlt : ∀ sec ∈ sections, sec.sectionOrd < sections.length := by
    intro sec hsec
    have hmem : sec.sectionOrd ∈ sections.map NewSection.sectionOrd := List.mem_map_of_mem hsec
    rw [hords] at hmem
    exact List.mem_range.mp hmem
  -- both lists are ordered by position, so it is enough that they have the same members
  have hsorted : ((pageRows (replacePageSections now t sourcePath sections).1 sourcePath).map
      shown).Pairwise fun a b => a.sectionOrd < b.sectionOrd := by
    rw [List.pairwise_map]
    exact pairwise_pageRows _ _
  have hsorted' : (sections.map NewSection.shown).Pairwise
      fun a b => a.sectionOrd < b.sectionOrd := by
    rw [List.pairwise_map]
    have hrange : (sections.map NewSection.sectionOrd).Pairwise (· < ·) := by
      rw [hords]
      exact List.pairwise_lt_range
    exact List.pairwise_map.mp hrange
  have hmem : ∀ x, x ∈ (pageRows (replacePageSections now t sourcePath sections).1 sourcePath).map
      shown ↔ x ∈ sections.map NewSection.shown := by
    intro x
    rw [List.mem_map, List.mem_map]
    constructor
    · rintro ⟨r, hr, rfl⟩
      rw [mem_pageRows_iff, hget, Option.filter_eq_some_iff] at hr
      obtain ⟨hr, hkeep⟩ := hr
      have hkey := (Table.get?_eq_some_iff.mp hr).2
      have hpathr : r.sourcePath = sourcePath := congrArg Prod.fst hkey
      have hord : r.sectionOrd < sections.length := by simpa [isTail, hpathr] using hkeep
      obtain ⟨sec, hsec, hsame⟩ : ∃ sec ∈ sections, sec.sectionOrd = r.sectionOrd := by
        have hin : r.sectionOrd ∈ sections.map NewSection.sectionOrd := by
          rw [hords]
          exact List.mem_range.mpr hord
        exact List.mem_map.mp hin
      obtain ⟨r', hr', hshown⟩ := get?_foldl_upsert now hkeys hsec t
      rw [hpath sec hsec, hsame, hr] at hr'
      obtain rfl := Option.some.inj hr'
      exact ⟨sec, hsec, hshown.symm⟩
    · rintro ⟨sec, hsec, rfl⟩
      obtain ⟨r, hr, hshown⟩ := get?_foldl_upsert now hkeys hsec t
      have hord : r.sectionOrd = sec.sectionOrd := congrArg ShownSection.sectionOrd hshown
      refine ⟨r, ?_, hshown⟩
      rw [mem_pageRows_iff, hget, Option.filter_eq_some_iff, hord]
      have hpathr : r.sourcePath = sourcePath :=
        (congrArg Prod.fst (Table.get?_eq_some_iff.mp hr).2).trans (hpath sec hsec)
      have hkeep := hlt sec hsec
      refine ⟨by rwa [hpath sec hsec] at hr, ?_⟩
      simpa [isTail, hpathr, hord] using hkeep
  refine List.Perm.eq_of_pairwise ?_ hsorted hsorted' ?_
  · intro a b _ _ hab hba
    exact absurd (hab.trans hba) (lt_irrefl _)
  · exact (List.perm_ext_iff_of_nodup (hsorted.imp fun h heq => absurd (heq ▸ h) (lt_irrefl _))
      (hsorted'.imp fun h heq => absurd (heq ▸ h) (lt_irrefl _))).mpr hmem

/-! ## What a sweep leaves -/

section

variable {S : Type*} {policy : DocumentPolicy S} {embed : Str → Except Str (List UInt32)}
  {now sourcePath wikiId raw : Str} {report report' : ReindexFileReport} {t t' : SectionTable}

/-- What is shown of a page that was indexed afresh. -/
def expectedRows (policy : DocumentPolicy S) (raw wikiId : Str) :
    List ShownSection :=
  (desiredSections policy raw).zipIdx.map fun d => ⟨d.2, d.1.1, d.1.2, wikiId⟩

/-- What a run of fallible steps returns agrees with its list where each step does. -/
lemma map_of_mapM {ε α β γ : Type} {f : α → Except ε β} {g : β → γ} {h : α → γ} {xs : List α}
    {ys : List β} (hf : ∀ x y, f x = .ok y → g y = h x) (hrun : xs.mapM f = .ok ys) :
    ys.map g = xs.map h := by
  induction xs generalizing ys with
  | nil =>
    obtain rfl : [] = ys := Except.ok.inj hrun
    rfl
  | cons x xs ih =>
    rw [List.mapM_cons] at hrun
    obtain ⟨y, hy, hrun⟩ := Effect.except_bind_ok_iff.mp hrun
    obtain ⟨ys', hys, hrun⟩ := Effect.except_bind_ok_iff.mp hrun
    obtain rfl := Except.ok.inj hrun
    rw [List.map_cons, List.map_cons, hf x y hy, ih hys]

/-- Decoding a page's rows changes nothing that is shown of them. -/
lemma shown_of_findPageSections {existing : List (SectionRow (List UInt32))}
    (h : findPageSections t sourcePath = .ok existing) :
    existing.map shown = (pageRows t sourcePath).map shown := by
  refine map_of_mapM (fun raw row hdecode => ?_) h
  unfold decodeSection at hdecode
  split at hdecode
  · obtain rfl := Except.ok.inj hdecode
    rfl
  · exact absurd hdecode (by simp)

/-- A page is in sync when its positions are those of a list and its texts are the desired ones. -/
lemma smartPageInSync_iff {E : Type*} {existing : List (SectionRow E)} {desired : List Str} :
    smartPageInSync existing desired = true ↔
      existing.map SectionRow.sectionOrd = List.range desired.length ∧
        existing.map SectionRow.text = desired := by
  have hfrom : ∀ (existing : List (SectionRow E)) (desired : List Str) (k : ℕ),
      (existing.length = desired.length ∧
          ((existing.zipIdx k).all fun r => r.1.sectionOrd == r.2) = true) ∧
          ((existing.zip desired).all fun r => r.1.text == r.2) = true ↔
        existing.map SectionRow.sectionOrd = List.range' k desired.length ∧
          existing.map SectionRow.text = desired := by
    intro existing
    induction existing with
    | nil => intro desired k; cases desired <;> simp
    | cons r existing ih =>
      intro desired k
      cases desired with
      | nil => simp
      | cons d desired =>
        have hrest := ih desired (k + 1)
        simp only [List.length_cons, List.zipIdx_cons, List.all_cons, List.zip_cons_cons,
          List.map_cons, List.range'_succ, List.cons.injEq, Bool.and_eq_true, beq_iff_eq,
          Nat.add_right_cancel_iff]
        constructor
        · rintro ⟨⟨hlen, hord, hords⟩, htext, htexts⟩
          obtain ⟨hords', htexts'⟩ := hrest.mp ⟨⟨hlen, hords⟩, htexts⟩
          exact ⟨⟨hord, hords'⟩, htext, htexts'⟩
        · rintro ⟨⟨hord, hords⟩, htext, htexts⟩
          obtain ⟨⟨hlen, hords'⟩, htexts'⟩ := hrest.mpr ⟨hords, htexts⟩
          exact ⟨⟨hlen, hord, hords'⟩, htext, htexts'⟩
  rw [smartPageInSync, Bool.and_eq_true, Bool.and_eq_true, beq_iff_eq, hfrom, List.range_eq_range']

/-- Whether a page is in sync is a matter of what is shown of its rows. -/
lemma smartPageInSync_congr {E F : Type*} {rows : List (SectionRow E)} {rows' : List (SectionRow F)}
    (h : rows.map shown = rows'.map shown) (desired : List Str) :
    smartPageInSync rows desired = smartPageInSync rows' desired := by
  have hords : rows.map SectionRow.sectionOrd = rows'.map SectionRow.sectionOrd := by
    have hfst := congrArg (List.map ShownSection.sectionOrd) h
    simpa [shown, Function.comp_def] using hfst
  have htexts : rows.map SectionRow.text = rows'.map SectionRow.text := by
    have hsnd := congrArg (List.map ShownSection.text) h
    simpa [shown, Function.comp_def] using hsnd
  rw [Bool.eq_iff_iff, smartPageInSync_iff, smartPageInSync_iff, hords, htexts]

/-- The sections that are written are the desired ones, by position. -/
lemma shown_of_mapM_newSection {existing : List (SectionRow (List UInt32))}
    {sections : List NewSection}
    (h : (desiredSections policy raw).zipIdx.mapM (newSection embed existing sourcePath wikiId) =
      .ok sections) :
    sections.map NewSection.shown = expectedRows policy raw wikiId ∧
      (∀ sec ∈ sections, sec.sourcePath = sourcePath) ∧
      sections.map NewSection.sectionOrd = List.range sections.length := by
  have hstep : ∀ d sec, newSection embed existing sourcePath wikiId d = .ok sec →
      sec.shown = ⟨d.2, d.1.1, d.1.2, wikiId⟩ ∧ sec.sourcePath = sourcePath := by
    intro d sec h
    unfold newSection at h
    cases hembed : sectionEmbedding embed existing d.1.1 with
    | error e => simp [hembed, Except.map] at h
    | ok v =>
      obtain rfl : _ = sec := by simpa [hembed, Except.map] using h
      exact ⟨rfl, rfl⟩
  have hshown := map_of_mapM (fun d sec hd => (hstep d sec hd).1) h
  refine ⟨hshown, fun sec hsec => ?_, ?_⟩
  · obtain ⟨d, -, hd⟩ := Effect.except_mapM_mem h hsec
    exact (hstep d sec hd).2
  · have hlen : sections.length = (desiredSections policy raw).length := by
      simpa using congrArg List.length hshown
    have hords := congrArg (List.map ShownSection.sectionOrd) hshown
    rw [List.map_map, List.map_map] at hords
    rw [hlen]
    refine Eq.trans (b := (desiredSections policy raw).zipIdx.map Prod.snd) hords ?_
    simp [List.zipIdx_map_snd, List.range_eq_range']

/-- A sweep that returns has left a page in sync as it was, or stored the desired sections. -/
lemma sectionIndexPage_eq_ok
    (h : sectionIndexPage policy embed now sourcePath wikiId raw report t = .ok (t', report')) :
    smartPageInSync (pageRows t sourcePath) ((desiredSections policy raw).map Prod.fst) = true ∧
        t' = t ∨
      ¬ smartPageInSync (pageRows t sourcePath) ((desiredSections policy raw).map Prod.fst) = true ∧
        (pageRows t' sourcePath).map shown = expectedRows policy raw wikiId := by
  unfold sectionIndexPage at h
  obtain ⟨existing, hexisting, h⟩ := Effect.except_bind_ok_iff.mp h
  have hsync := smartPageInSync_congr (shown_of_findPageSections hexisting)
    ((desiredSections policy raw).map Prod.fst)
  split at h
  · next hin =>
    obtain ⟨rfl, -⟩ := Prod.mk.inj (Except.ok.inj h)
    exact Or.inl ⟨hsync ▸ hin, rfl⟩
  · next hout =>
    obtain ⟨sections, hsections, h⟩ := Effect.except_bind_ok_iff.mp h
    obtain ⟨hshown, hpath, hords⟩ := shown_of_mapM_newSection hsections
    obtain ⟨rfl, -⟩ := Prod.mk.inj (Except.ok.inj h)
    exact Or.inr ⟨hsync ▸ hout, (shown_replacePageSections now t hpath hords).trans hshown⟩

/-- A run on an empty table stores the desired sections. -/
lemma shown_fresh
    (h : sectionIndexPage policy embed now sourcePath wikiId raw report (Table.empty _) =
      .ok (t', report')) :
    (pageRows t' sourcePath).map shown = expectedRows policy raw wikiId := by
  rcases sectionIndexPage_eq_ok h with ⟨hsync, rfl⟩ | ⟨-, hshown⟩
  · have hnone : pageRows (Table.empty SectionRow.key) sourcePath = [] := rfl
    rw [hnone] at hsync ⊢
    have hempty : desiredSections policy raw = [] := by
      simpa using (smartPageInSync_iff.mp hsync).2.symm
    rw [expectedRows, hempty]
    rfl
  · exact hshown

/-- With an embedder that works, a run on an empty table returns. -/
lemma exists_fresh (policy : DocumentPolicy S) (sourcePath wikiId raw : Str) :
    ∃ fresh report', sectionIndexPage policy (fun _ => .ok []) [] sourcePath wikiId raw {}
      (Table.empty _) = .ok (fresh, report') := by
  have hrun : ∀ ds : List ((Str × Option Str) × ℕ), ∃ sections,
      ds.mapM (newSection (fun _ => .ok []) [] sourcePath wikiId) = .ok sections := by
    intro ds
    induction ds with
    | nil => exact ⟨[], rfl⟩
    | cons d ds ih =>
      obtain ⟨sections, hsections⟩ := ih
      exact ⟨_ :: sections, by rw [List.mapM_cons, hsections]; rfl⟩
  obtain ⟨sections, hsections⟩ := hrun (desiredSections policy raw).zipIdx
  have hnone : findPageSections (Table.empty SectionRow.key) sourcePath = .ok [] := rfl
  unfold sectionIndexPage
  rw [hnone]
  simp only [bind, Except.bind]
  split
  · exact ⟨_, _, rfl⟩
  · rw [hsections]
    exact ⟨_, _, rfl⟩

/-! ## When the index agrees -/

/-- The sections that are stored are no more than the segments, and as many when no two segments
have one text. -/
lemma length_foldl_desireSegment (segments : List Segment) (desired : List (Str × Option Str)) :
    (segments.foldl desireSegment desired).length ≤ desired.length + segments.length ∧
      ((segments.foldl desireSegment desired).length = desired.length + segments.length ↔
        (segments.map segmentText).Nodup ∧
          ∀ seg ∈ segments, segmentText seg ∉ desired.map Prod.fst) := by
  induction segments generalizing desired with
  | nil => simp
  | cons seg segments ih =>
    rw [List.foldl_cons, desireSegment]
    have hany : (desired.any fun d => d.1 == segmentText seg) = true ↔
        segmentText seg ∈ desired.map Prod.fst := by
      simp [List.any_eq_true, List.mem_map, beq_iff_eq]
    by_cases hold : segmentText seg ∈ desired.map Prod.fst
    · obtain ⟨hle, -⟩ := ih desired
      simp only [if_pos (hany.mpr hold), List.length_cons]
      refine ⟨by omega, iff_of_false (by omega) ?_⟩
      exact fun h => h.2 seg List.mem_cons_self hold
    · obtain ⟨hle, hiff⟩ :=
        ih (desired ++ [(segmentText seg, seg.heading.filter fun h => !h.isEmpty)])
      simp only [if_neg (fun h => hold (hany.mp h))]
      rw [List.length_append, List.length_singleton] at hle hiff
      rw [List.length_cons, List.map_cons, List.nodup_cons]
      refine ⟨by omega, ?_⟩
      have hsum : desired.length + (segments.length + 1) =
          desired.length + 1 + segments.length := by omega
      rw [hsum, hiff]
      have hmem : ∀ s : Segment, segmentText s ∉
            (desired ++ [(segmentText seg, seg.heading.filter fun h => !h.isEmpty)]).map Prod.fst ↔
          segmentText s ∉ desired.map Prod.fst ∧ segmentText s ≠ segmentText seg := by
        intro s
        rw [List.map_append, List.mem_append, not_or]
        simp
      constructor
      · rintro ⟨hnodup, hrest⟩
        refine ⟨⟨fun hin => ?_, hnodup⟩, List.forall_mem_cons.mpr
          ⟨hold, fun s hs => ((hmem s).mp (hrest s hs)).1⟩⟩
        obtain ⟨s, hs, heq⟩ := List.mem_map.mp hin
        exact ((hmem s).mp (hrest s hs)).2 heq
      · rintro ⟨⟨hnew, hnodup⟩, hall⟩
        refine ⟨hnodup, fun s hs => (hmem s).mpr ⟨hall s (List.mem_cons_of_mem seg hs), ?_⟩⟩
        exact fun heq => hnew (heq ▸ List.mem_map_of_mem hs)

/-- Rows with the positions and the texts of some sections are shown as these where they have the
headings and the wiki. -/
lemma shown_eq_iff {rows : List (SectionRow (List UInt8))} {ds : List (Str × Option Str)} {k : ℕ}
    (hords : rows.map SectionRow.sectionOrd = List.range' k ds.length)
    (htexts : rows.map SectionRow.text = ds.map Prod.fst) :
    rows.map shown = (ds.zipIdx k).map (fun d => ⟨d.2, d.1.1, d.1.2, wikiId⟩) ↔
      ∀ p ∈ rows.zip ds, p.1.headingPath = p.2.2 ∧ p.1.wikiId = wikiId := by
  induction rows generalizing ds k with
  | nil =>
    obtain rfl : ds = [] := by simpa using htexts.symm
    simp
  | cons r rows ih =>
    cases ds with
    | nil => simp at htexts
    | cons d ds =>
      rw [List.map_cons, List.length_cons, List.range'_succ, List.cons.injEq] at hords
      rw [List.map_cons, List.map_cons, List.cons.injEq] at htexts
      rw [List.map_cons, List.zipIdx_cons, List.map_cons, List.cons.injEq, ih hords.2 htexts.2,
        List.zip_cons_cons, List.forall_mem_cons]
      refine and_congr_left fun _ => ?_
      simp [shown, hords.1, htexts.1]

/-- Where the stored rows of a page are already in sync with its text, they have the heading and
the wiki that the page's sections have. -/
def KeptRowsStand (policy : DocumentPolicy S) (sourcePath wikiId raw : Str) (t : SectionTable) :
    Prop :=
  smartPageInSync (pageRows t sourcePath) ((desiredSections policy raw).map Prod.fst) = true →
    ∀ p ∈ (pageRows t sourcePath).zip (desiredSections policy raw),
      p.1.headingPath = p.2.2 ∧ p.1.wikiId = wikiId

/-- After a sweep the page's rows are those a run on an empty table writes and as many as
`pageShape` counts, exactly when the rows that the sweep left as they were had the right heading and
wiki, and no two sections of the page have one text. -/
theorem section_index_agrees_iff
    (h : sectionIndexPage policy embed now sourcePath wikiId raw report t = .ok (t', report')) :
    ((∀ embed₀ now₀ fresh report₀ report₁,
          sectionIndexPage policy embed₀ now₀ sourcePath wikiId raw report₀ (Table.empty _) =
              .ok (fresh, report₁) →
            (pageRows t' sourcePath).map shown = (pageRows fresh sourcePath).map shown) ∧
        (pageRows t' sourcePath).length = (pageShape raw policy).sections) ↔
      KeptRowsStand policy sourcePath wikiId raw t ∧
        ((segmentProse policy raw).map segmentText).Nodup := by
  have hagree : (∀ embed₀ now₀ fresh report₀ report₁,
        sectionIndexPage policy embed₀ now₀ sourcePath wikiId raw report₀ (Table.empty _) =
            .ok (fresh, report₁) →
          (pageRows t' sourcePath).map shown = (pageRows fresh sourcePath).map shown) ↔
      (pageRows t' sourcePath).map shown = expectedRows policy raw wikiId := by
    constructor
    · intro hall
      obtain ⟨fresh, report₁, hfresh⟩ := exists_fresh policy sourcePath wikiId raw
      exact (hall _ _ _ _ _ hfresh).trans (shown_fresh hfresh)
    · intro hshown embed₀ now₀ fresh report₀ report₁ hfresh
      exact hshown.trans (shown_fresh hfresh).symm
  have hcount : (pageRows t' sourcePath).length = (desiredSections policy raw).length := by
    rcases sectionIndexPage_eq_ok h with ⟨hsync, rfl⟩ | ⟨-, hshown⟩
    · simpa using congrArg List.length (smartPageInSync_iff.mp hsync).2
    · simpa [expectedRows] using congrArg List.length hshown
  have hshape : (pageRows t' sourcePath).length = (pageShape raw policy).sections ↔
      ((segmentProse policy raw).map segmentText).Nodup := by
    have hfold := (length_foldl_desireSegment (segmentProse policy raw) []).2
    simp only [List.length_nil, Nat.zero_add, List.map_nil, List.not_mem_nil, not_false_eq_true,
      implies_true, and_true] at hfold
    rw [hcount]
    exact hfold
  rw [hagree, hshape]
  refine and_congr_left fun _ => ?_
  rcases sectionIndexPage_eq_ok h with ⟨hsync, rfl⟩ | ⟨hsync, hshown⟩
  · obtain ⟨hords, htexts⟩ := smartPageInSync_iff.mp hsync
    rw [List.length_map, List.range_eq_range'] at hords
    rw [expectedRows, shown_eq_iff hords htexts]
    exact ⟨fun hrows _ => hrows, fun hstand => hstand hsync⟩
  · exact iff_of_true hshown fun hin => absurd hin hsync

end

/-! ## A page that gets a title -/

/-- A sweep over a page of the wiki `notes`. -/
def notesSweep (raw : String) (t : SectionTable) :
    Except SectionError (SectionTable × ReindexFileReport) :=
  sectionIndexPage (DocumentPolicy.forSections ()) (fun _ => .ok [0x3f800000])
    "2026-05-12T08:00:00Z".toList "notes/todo.md".toList "notes".toList raw.toList {} t

/-- What is shown of the page after a sweep. -/
def notesRows (r : Except SectionError (SectionTable × ReindexFileReport)) :
    Except SectionError (List ShownSection) :=
  r.map fun p => (pageRows p.1 "notes/todo.md".toList).map shown

/-- A page whose first line becomes a heading keeps its row without a heading, which a run on an
empty table would write.  A page that says a section twice has one row, where `pageShape` counts
two. -/
theorem titled_page_keeps_no_heading :
    notesRows ((notesSweep "A\n\nhello" (Table.empty _)).bind fun p =>
        notesSweep "# A\n\nhello" p.1) =
      .ok [⟨0, "A\n\nhello".toList, none, "notes".toList⟩] ∧
    notesRows (notesSweep "# A\n\nhello" (Table.empty _)) =
      .ok [⟨0, "A\n\nhello".toList, some "A".toList, "notes".toList⟩] ∧
    notesRows (notesSweep "# A\n\nx\n\n# A\n\nx" (Table.empty _)) =
      .ok [⟨0, "A\n\nx".toList, some "A".toList, "notes".toList⟩] ∧
    (pageShape "# A\n\nx\n\n# A\n\nx".toList (DocumentPolicy.forSections ())).sections = 2 := by
  refine ⟨?_, ?_, ?_, ?_⟩
  all_goals decide +kernel

/-- The titled page, indexed for the first time. -/
theorem section_index_agrees_iff_titled :
    ∃ t' report', sectionIndexPage (DocumentPolicy.forSections ()) (fun _ => .ok []) []
        "notes/todo.md".toList "notes".toList "# A\n\nhello".toList {} (Table.empty _) =
          .ok (t', report') ∧
      (pageRows t' "notes/todo.md".toList).length =
        (pageShape "# A\n\nhello".toList (DocumentPolicy.forSections ())).sections := by
  obtain ⟨t', report', h⟩ := exists_fresh (DocumentPolicy.forSections ()) "notes/todo.md".toList
    "notes".toList "# A\n\nhello".toList
  refine ⟨t', report', h, ((section_index_agrees_iff h).mpr ⟨?_, by decide +kernel⟩).2⟩
  intro hsync
  exact absurd hsync (by decide +kernel)

end Reindex

end Mwe
