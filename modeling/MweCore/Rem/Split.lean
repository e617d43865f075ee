import MweCore.Rem.Card

/-!
# What a split leaves

The judge answers a page with a verdict for each marker and, sometimes, a split.  The verdicts are
carried out first.  A split is refused when it would move every fact of the page, and the facts are
counted as they were read; a verdict of the same answer may have retired those that were to stay.

`split_leaves_both_iff` says when a split that is applied leaves a fact behind.  The rest of what a
split promises it keeps always: it moves the facts it names, all of which still stand, to a page
that is neither reserved nor the one they come from.
-/

namespace Mwe

namespace Rem

open Str FactIndex

variable {T S : Type*} [LinearOrder T] [LinearOrder S]

/-! ## Moving facts -/

/-- What the pages answer a move: nothing was written yet when it was given up, a page was not
written, or both were. -/
inductive FileSide where
  | unread
  | unwritten (old : FactId → Option ℤ × Option ℤ)
  | written (new : FactId → Option ℤ × Option ℤ)

/-- Point the rows of facts at a page. -/
def pointAt (facts : FactTable) (ids : List FactId) (path : Str)
    (region : FactId → Option ℤ × Option ℤ) (now : Str) : FactTable :=
  ids.foldl (fun facts id => moveRegion facts id path (region id) now) facts

/-- Move facts to another page, and say whether they moved.  The rows are pointed there first,
without offsets; when a page is not written they are pointed back. -/
def applyParagraphToFile (facts : FactTable) (sourceRel targetRel : Str) (ids : List FactId)
    (files : FileSide) (now : Str) : FactTable × Bool :=
  if ids.all fun id => (facts.get? id).any fun r => r.isActive && r.sourcePath = sourceRel then
    let pending := pointAt facts ids targetRel (fun _ => (none, none)) now
    match files with
    | .unread => (facts, false)
    | .unwritten old => (pointAt pending ids sourceRel old now, false)
    | .written new => (pointAt pending ids targetRel new now, true)
  else (facts, false)

/-- What became of a split. -/
inductive SplitOutcome where
  | notAsked | refused
  | applied (target : Str)
  deriving DecidableEq

/-- A page as the judge reads it, and the directory of its wiki. -/
structure SeatedPage extends JudgedPage where
  dir : Str
  seated : ∀ page, pageInWiki = some page → sourcePath = dir ++ '/' :: page

/-- Carry out a split. -/
def splitPage (facts : FactTable) (page : SeatedPage) (split : LlmPageSplit) (files : FileSide)
    (now : Str) : FactTable × SplitOutcome :=
  match page.pageInWiki with
  | none => (facts, .refused)
  | some sourcePage =>
    if !page.heavyEnoughToSplit then (facts, .refused)
    else
      match factsThatMove page.toJudgedPage split with
      | none => (facts, .refused)
      | some moving =>
        match pageTheSplitOpens split moving sourcePage with
        | none => (facts, .refused)
        | some target =>
          let out := applyParagraphToFile facts (page.dir ++ '/' :: sourcePage)
            (page.dir ++ '/' :: target) (moving.map FactRow.factId) files now
          (out.1, if out.2 then .applied target else .refused)

/-! ## The answer of the judge -/

/-- What the judge works with; `reindexed` is what the index becomes when the page of a retired fact
is cut and read again. -/
structure Bench (T S : Type*) where
  chrono : Chrono T
  lib : Library T S
  staged : FactId → Option Str
  depth : JudgementDepth
  memoryNow : T
  now : Str
  reindexed : FactTable → FactTable

/-- The index, the questions asked and the facts decided so far. -/
structure Reading where
  facts : FactTable
  asked : List CardRetype := []
  decided : List FactId := []

/-- Merge a fact into another when both stand, and say whether it was done. -/
def Bench.applyDedupMerge (bench : Bench T S) (facts : FactTable) (winner loser : FactId) :
    FactTable × Bool :=
  if loser = winner then (facts, false)
  else
    match (facts.get? winner).filter FactRow.isActive,
      (facts.get? loser).filter FactRow.isActive with
    | some w, some l =>
      let out := markSuperseded bench.chrono facts (bench.staged winner) loser winner
        bench.memoryNow bench.now
      if out.1 = 0 then (out.2, false)
      else
        let refs := unionRefs w l
        (if refs.length = w.authoredRefs.length then out.2
          else setAuthoredRefs out.2 winner refs bench.now, true)
    | _, _ => (facts, false)

/-- Carry out one verdict. -/
def Bench.applyVerdict (bench : Bench T S) (page : JudgedPage) (st : Reading)
    (v : ℕ × LlmPageVerdict) : Reading :=
  match page.factAt v.1 with
  | none => st
  | some row =>
    if touchesADecidedFact page v.2 row st.decided then st
    else
      match weigh bench.chrono bench.lib bench.depth bench.memoryNow page row v.2 with
      | .merge winner loser =>
        let out := bench.applyDedupMerge st.facts winner.factId loser.factId
        if out.2 then
          { st with facts := bench.reindexed out.1, decided := st.decided ++ [loser.factId] }
        else { st with facts := out.1 }
      | act =>
        let out := carryOut bench.chrono st.facts st.asked bench.now act
        { facts := out.1, asked := out.2.1, decided := st.decided ++ out.2.2.toList }

/-- Carry out the verdicts in the order of their markers. -/
def Bench.applyVerdicts (bench : Bench T S) (page : JudgedPage) (facts : FactTable)
    (asked : List CardRetype) (decision : PageDecision) : Reading :=
  (inMarkerOrder decision.verdicts).foldl (bench.applyVerdict page) { facts, asked }

/-- Carry out an answer: the verdicts, and then the split. -/
def Bench.applyPageDecision (bench : Bench T S) (page : SeatedPage) (facts : FactTable)
    (asked : List CardRetype) (decision : PageDecision) (files : FileSide) :
    FactTable × List CardRetype × SplitOutcome :=
  let st := bench.applyVerdicts page.toJudgedPage facts asked decision
  match decision.split with
  | none => (st.facts, st.asked, .notAsked)
  | some split =>
    if split.markers.isEmpty then (st.facts, st.asked, .notAsked)
    else
      let out := splitPage st.facts page split files bench.now
      (out.1, st.asked, out.2)

/-! ## What is to be left -/

/-- A fact that stands on a page: neither superseded nor tombstoned. -/
def StandsOn (facts : FactTable) (path : Str) (id : FactId) : Prop :=
  ∃ r, facts.get? id = some r ∧ r.isActive = true ∧ r.sourcePath = path

/-- A fact that is on another page now. -/
def Moved (before after : FactTable) (id : FactId) : Prop :=
  ∃ r r', before.get? id = some r ∧ after.get? id = some r' ∧ r'.sourcePath ≠ r.sourcePath

/-- A fact a split names by one of its markers. -/
def Names (page : JudgedPage) (split : LlmPageSplit) (id : FactId) : Prop :=
  ∃ raw ∈ split.markers, ∃ row, page.named (some raw) = some (some row) ∧ row.factId = id

/-- What a split that is applied promises, given the index when it began. -/
structure LeavesBoth (page : SeatedPage) (split : LlmPageSplit) (target : Str)
    (before after : FactTable) : Prop where
  source : ∃ id, StandsOn after page.sourcePath id
  opened : ∃ id, StandsOn after (page.dir ++ '/' :: target) id
  moved : ∀ id, Moved before after id ↔
    Names page.toJudgedPage split id ∧ ∃ r, before.get? id = some r ∧ r.isActive = true
  notReserved : ∃ slug, target = slug ++ ".md".toList ∧ isReservedPageStem slug = false
  notSource : page.dir ++ '/' :: target ≠ page.sourcePath

/-- More facts stand on the page than the split moves. -/
def Outnumbered (page : JudgedPage) (split : LlmPageSplit) (facts : FactTable) : Prop :=
  ∃ moving ∈ factsThatMove page split,
    moving.length < (findActiveBySourcePath facts page.sourcePath).length

instance (page : JudgedPage) (split : LlmPageSplit) (facts : FactTable) :
    Decidable (Outnumbered page split facts) :=
  inferInstanceAs (Decidable (∃ moving ∈ factsThatMove page split,
    moving.length < (findActiveBySourcePath facts page.sourcePath).length))

/-! ## The facts that move -/

/-- Keeping the first row of each fact. -/
lemma ids_of_once (rows kept : List FactRow) (hkept : (kept.map FactRow.factId).Nodup) :
    let out := rows.foldl (fun moving row =>
      if moving.any fun f => f.factId == row.factId then moving else moving ++ [row]) kept
    (out.map FactRow.factId).Nodup ∧ ∀ id, id ∈ out.map FactRow.factId ↔
      id ∈ kept.map FactRow.factId ∨ id ∈ rows.map FactRow.factId := by
  induction rows generalizing kept with
  | nil => exact ⟨hkept, by simp⟩
  | cons row rows ih =>
    by_cases hold : (kept.any fun f => f.factId == row.factId) = true
    · rw [List.foldl_cons, if_pos hold]
      obtain ⟨hnodup, hmem⟩ := ih kept hkept
      refine ⟨hnodup, fun id => ?_⟩
      rw [hmem, List.map_cons, List.mem_cons]
      have hin : row.factId ∈ kept.map FactRow.factId := by
        obtain ⟨f, hf, heq⟩ := List.any_eq_true.mp hold
        exact List.mem_map.mpr ⟨f, hf, by simpa using heq⟩
      constructor
      · rintro (h | h)
        · exact .inl h
        · exact .inr (.inr h)
      · rintro (h | rfl | h)
        · exact .inl h
        · exact .inl hin
        · exact .inr h
    · rw [List.foldl_cons, if_neg hold]
      have hnew : row.factId ∉ kept.map FactRow.factId := by
        intro hin
        obtain ⟨f, hf, heq⟩ := List.mem_map.mp hin
        exact hold (List.any_eq_true.mpr ⟨f, hf, by simpa using heq⟩)
      obtain ⟨hnodup, hmem⟩ := ih (kept ++ [row]) (by
        rw [List.map_append, List.nodup_append]
        refine ⟨hkept, by simp, ?_⟩
        rintro id hid _ hrow rfl
        rw [List.map_singleton, List.mem_singleton] at hrow
        exact hnew (hrow ▸ hid))
      refine ⟨hnodup, fun id => ?_⟩
      rw [hmem]
      simp [or_assoc]

/-- Where a function that may fail maps a list, it maps each element. -/
lemma exists_of_mapM_mem {α β : Type*} {f : α → Option β} {xs : List α} {ys : List β}
    (h : xs.mapM f = some ys) {x : α} (hx : x ∈ xs) : ∃ y ∈ ys, f x = some y := by
  induction xs generalizing ys with
  | nil => cases hx
  | cons x' xs ih =>
    rw [List.mapM_cons] at h
    obtain ⟨first, hfirst, h⟩ := Option.bind_eq_some_iff.mp h
    obtain ⟨rest, hrest, h⟩ := Option.bind_eq_some_iff.mp h
    obtain rfl := Option.some.inj h
    rcases List.mem_cons.mp hx with rfl | hx
    · exact ⟨first, List.mem_cons_self, hfirst⟩
    · obtain ⟨y, hy, hf⟩ := ih hrest hx
      exact ⟨y, List.mem_cons_of_mem first hy, hf⟩

/-- The facts that move are the ones the split names, each once and at least one. -/
lemma factsThatMove_spec {page : JudgedPage} {split : LlmPageSplit} {moving : List FactRow}
    (h : factsThatMove page split = some moving) :
    (moving.map FactRow.factId).Nodup ∧ moving ≠ [] ∧
      ∀ id, id ∈ moving.map FactRow.factId ↔ Names page split id := by
  obtain ⟨rows, hrows, hmoving⟩ := Option.bind_eq_some_iff.mp h
  obtain ⟨hnodup, hmem⟩ := ids_of_once rows [] (by simp)
  dsimp only at hmoving hnodup hmem
  split_ifs at hmoving with hfew
  rw [Option.some.inj hmoving] at hnodup hmem hfew
  simp only [Bool.or_eq_true, not_or] at hfew
  refine ⟨hnodup, by simpa using hfew.1, fun id => ?_⟩
  rw [hmem, List.map_nil, List.mem_map]
  simp only [List.not_mem_nil, false_or]
  constructor
  · rintro ⟨row, hrow, rfl⟩
    obtain ⟨raw, hraw, hat⟩ := exists_of_mem_mapM hrows hrow
    exact ⟨raw, hraw, row, Option.join_eq_some_iff.mp hat, rfl⟩
  · rintro ⟨raw, hraw, row, hat, rfl⟩
    obtain ⟨row', hrow', hsome⟩ := exists_of_mapM_mem hrows hraw
    rw [Option.join_eq_some_iff.mpr hat] at hsome
    exact ⟨row', hrow', by rw [Option.some.inj hsome]⟩

/-- The page a split opens has a name of its own. -/
lemma pageTheSplitOpens_spec {split : LlmPageSplit} {moving : List FactRow}
    {sourcePage target : Str} (h : pageTheSplitOpens split moving sourcePage = some target) :
    (∃ slug, target = slug ++ ".md".toList ∧ isReservedPageStem slug = false) ∧
      target ≠ sourcePage := by
  unfold pageTheSplitOpens at h
  dsimp only at h
  split_ifs at h with hreserved hsame
  obtain rfl := Option.some.inj h
  simp only [Bool.or_eq_true, not_or] at hreserved
  exact ⟨⟨_, rfl, by simpa using hreserved.2⟩, hsame⟩

/-! ## The rows that move -/

lemma get?_moveRegion (facts : FactTable) (id : FactId) (path : Str)
    (region : Option ℤ × Option ℤ) (now : Str) (k : FactId) :
    (moveRegion facts id path region now).get? k = (facts.get? k).map fun r =>
      if r.factId == id && r.isActive then r.atRegion path region now else r :=
  Sql.Table.get?_update k

/-- A fact that stands is pointed at the page when it is one of those that move, and is as it was
otherwise. -/
lemma get?_pointAt {facts : FactTable} {ids : List FactId} {path : Str}
    {region : FactId → Option ℤ × Option ℤ} {now : Str} {k : FactId} {r : FactRow}
    (hr : facts.get? k = some r) (hactive : r.isActive = true) :
    ∃ r', (pointAt facts ids path region now).get? k = some r' ∧ r'.isActive = true ∧
      (k ∈ ids → r'.sourcePath = path) ∧ (k ∉ ids → r' = r) := by
  have hkey := (Sql.Table.get?_eq_some_iff.mp hr).2
  induction ids using List.reverseRecOn with
  | nil => exact ⟨r, hr, hactive, by simp, fun _ => rfl⟩
  | append_singleton ids id ih =>
    obtain ⟨r', hr', hactive', hin, hout⟩ := ih
    have hkey' := (Sql.Table.get?_eq_some_iff.mp hr').2
    have hlast : (pointAt facts (ids ++ [id]) path region now).get? k =
        some (if r'.factId == id && r'.isActive then r'.atRegion path (region id) now else r') := by
      rw [pointAt, List.foldl_append]
      change (moveRegion (pointAt facts ids path region now) id path (region id) now).get? k = _
      rw [get?_moveRegion, hr']
      rfl
    refine ⟨_, hlast, ?_, ?_, ?_⟩
    · split_ifs <;> exact hactive'
    · intro hk
      by_cases hid : r'.factId = id
      · simp [hid, hactive', FactRow.atRegion]
      · rw [if_neg (by simp [hid])]
        rcases List.mem_append.mp hk with hk | hk
        · exact hin hk
        · exact absurd (hkey'.trans (List.mem_singleton.mp hk)) hid
    · intro hk
      rw [List.mem_append, not_or, List.mem_singleton] at hk
      rw [if_neg (by simp [hkey', hk.2]), hout hk.1]

/-- Pointing facts at a page touches no other. -/
lemma get?_pointAt_of_notMem {facts : FactTable} {ids : List FactId} {path : Str}
    {region : FactId → Option ℤ × Option ℤ} {now : Str} {k : FactId} (hk : k ∉ ids) :
    (pointAt facts ids path region now).get? k = facts.get? k := by
  induction ids generalizing facts with
  | nil => rfl
  | cons id ids ih =>
    rw [List.mem_cons, not_or] at hk
    have hfirst : (moveRegion facts id path (region id) now).get? k = facts.get? k := by
      rw [get?_moveRegion]
      cases hr : facts.get? k with
      | none => rfl
      | some r =>
        have hkey := (Sql.Table.get?_eq_some_iff.mp hr).2
        rw [Option.map_some, if_neg (by simp [hkey, hk.1])]
    exact (ih hk.2).trans hfirst

/-- Facts that moved all stood on the page, and their rows point at the other. -/
lemma applyParagraphToFile_moved {facts : FactTable} {sourceRel targetRel : Str}
    {ids : List FactId} {files : FileSide} {now : Str}
    (h : (applyParagraphToFile facts sourceRel targetRel ids files now).2 = true) :
    (∀ id ∈ ids, StandsOn facts sourceRel id) ∧
      ∃ new, (applyParagraphToFile facts sourceRel targetRel ids files now).1 =
        pointAt (pointAt facts ids targetRel (fun _ => (none, none)) now) ids targetRel new
          now := by
  unfold applyParagraphToFile at h ⊢
  split_ifs at h ⊢ with hstand
  constructor
  · intro id hid
    obtain ⟨r, hr, hrow⟩ := (Option.any_eq_true _ _).mp (List.all_eq_true.mp hstand id hid)
    rw [Bool.and_eq_true, decide_eq_true_eq] at hrow
    exact ⟨r, hr, hrow⟩
  · cases files with
    | unread | unwritten _ => cases h
    | written new => exact ⟨new, rfl⟩

/-- A split that is applied has moved facts that all stood on its page. -/
lemma splitPage_applied {facts : FactTable} {page : SeatedPage} {split : LlmPageSplit}
    {files : FileSide} {now target : Str}
    (h : (splitPage facts page split files now).2 = .applied target) :
    ∃ moving new, factsThatMove page.toJudgedPage split = some moving ∧
      (∃ slug, target = slug ++ ".md".toList ∧ isReservedPageStem slug = false) ∧
      page.dir ++ '/' :: target ≠ page.sourcePath ∧
      (∀ id ∈ moving.map FactRow.factId, StandsOn facts page.sourcePath id) ∧
      (splitPage facts page split files now).1 =
        pointAt (pointAt facts (moving.map FactRow.factId) (page.dir ++ '/' :: target)
          (fun _ => (none, none)) now) (moving.map FactRow.factId) (page.dir ++ '/' :: target)
            new now := by
  unfold splitPage at h ⊢
  split at h
  · cases h
  next sourcePage hpage =>
  split_ifs at h with hheavy
  split at h
  · cases h
  next moving hmoving =>
  split at h
  · cases h
  next target' htarget =>
  rw [if_neg hheavy, hmoving]
  dsimp only at h ⊢
  by_cases hmoved : (applyParagraphToFile facts (page.dir ++ '/' :: sourcePage)
      (page.dir ++ '/' :: target') (moving.map FactRow.factId) files now).2 = true
  · rw [if_pos hmoved] at h
    obtain rfl := SplitOutcome.applied.inj h
    have hsource := page.seated sourcePage hpage
    obtain ⟨hname, hne⟩ := pageTheSplitOpens_spec htarget
    obtain ⟨hstand, new, hrows⟩ := applyParagraphToFile_moved hmoved
    rw [← hsource] at hstand
    refine ⟨moving, new, rfl, hname, ?_, hstand, hrows⟩
    rw [hsource]
    intro heq
    exact hne (List.tail_eq_of_cons_eq (List.append_cancel_left heq))
  · rw [if_neg hmoved] at h
    cases h

/-! ## What a split leaves -/

/-- Of two lists without repetitions, one of which has all of the other, that one is longer exactly
when it has an element the other lacks. -/
lemma length_lt_iff_exists_notMem {α : Type*} [DecidableEq α] {xs ys : List α} (hxs : xs.Nodup)
    (hys : ys.Nodup) (hsub : xs ⊆ ys) : xs.length < ys.length ↔ ∃ y ∈ ys, y ∉ xs := by
  constructor
  · intro hlt
    by_contra hall
    push Not at hall
    have hle := (List.Nodup.subperm hys hall).length_le
    omega
  · rintro ⟨y, hy, hnew⟩
    have hcons : (y :: xs) ⊆ ys := List.cons_subset.mpr ⟨hy, hsub⟩
    have hle := (List.Nodup.subperm (List.nodup_cons.mpr ⟨hnew, hxs⟩) hcons).length_le
    rw [List.length_cons] at hle
    omega

lemma mem_ids_findActiveBySourcePath {facts : FactTable} {path : Str} {id : FactId} :
    id ∈ (findActiveBySourcePath facts path).map FactRow.factId ↔ StandsOn facts path id := by
  rw [List.mem_map]
  constructor
  · rintro ⟨r, hr, rfl⟩
    obtain ⟨hmem, hrow⟩ := List.mem_filter.mp hr
    rw [Bool.and_eq_true, decide_eq_true_eq] at hrow
    exact ⟨r, Sql.Table.get?_eq_some_iff.mpr ⟨Sql.Table.mem_iff.mpr hmem, rfl⟩, hrow.2, hrow.1⟩
  · rintro ⟨r, hr, hactive, hpath⟩
    obtain ⟨hmem, hkey⟩ := Sql.Table.get?_eq_some_iff.mp hr
    exact ⟨r, List.mem_filter.mpr ⟨Sql.Table.mem_iff.mp hmem, by simp [hactive, hpath]⟩, hkey⟩

/-- Where all the facts that move stand on the page, more stand there than move exactly when one
stands there that does not move. -/
lemma outnumbered_iff {facts : FactTable} {page : JudgedPage} {split : LlmPageSplit}
    {moving : List FactRow} (h : factsThatMove page split = some moving)
    (hstand : ∀ id ∈ moving.map FactRow.factId, StandsOn facts page.sourcePath id) :
    Outnumbered page split facts ↔
      ∃ id, StandsOn facts page.sourcePath id ∧ id ∉ moving.map FactRow.factId := by
  have hnodup : ((findActiveBySourcePath facts page.sourcePath).map FactRow.factId).Nodup :=
    facts.nodup.sublist (List.filter_sublist.map FactRow.factId)
  have hcount := length_lt_iff_exists_notMem (factsThatMove_spec h).1 hnodup
    fun id hid => mem_ids_findActiveBySourcePath.mpr (hstand id hid)
  rw [List.length_map, List.length_map] at hcount
  unfold Outnumbered
  simp only [h, Option.mem_def, Option.some.injEq, exists_eq_left', hcount,
    mem_ids_findActiveBySourcePath]

omit [LinearOrder S] in
/-- A split that is applied leaves a fact on either page, moves exactly the facts it names, which
all stand, and opens a page that is neither reserved nor the one they come from, exactly when more
facts stand on the page as it begins than it moves.  All but the first it does always. -/
theorem split_leaves_both_iff (bench : Bench T S) (page : SeatedPage) (facts : FactTable)
    (asked : List CardRetype) (decision : PageDecision) (files : FileSide) {split : LlmPageSplit}
    {target : Str} (hsplit : decision.split = some split)
    (happlied : (bench.applyPageDecision page facts asked decision files).2.2 = .applied target) :
    LeavesBoth page split target
        (bench.applyVerdicts page.toJudgedPage facts asked decision).facts
        (bench.applyPageDecision page facts asked decision files).1 ↔
      Outnumbered page.toJudgedPage split
        (bench.applyVerdicts page.toJudgedPage facts asked decision).facts := by
  unfold Bench.applyPageDecision at happlied ⊢
  rw [hsplit] at happlied ⊢
  dsimp only at happlied ⊢
  generalize (bench.applyVerdicts page.toJudgedPage facts asked decision).facts = before
    at happlied ⊢
  split_ifs at happlied ⊢
  obtain ⟨moving, new, hmoving, hname, hne, hstand, hrows⟩ := splitPage_applied happlied
  obtain ⟨-, hsome, hnames⟩ := factsThatMove_spec hmoving
  dsimp only at happlied ⊢
  rw [hrows, outnumbered_iff hmoving hstand]
  generalize hids : moving.map FactRow.factId = ids at hstand hnames ⊢
  generalize hafter : pointAt (pointAt before ids (page.dir ++ '/' :: target)
    (fun _ => (none, none)) bench.now) ids (page.dir ++ '/' :: target) new bench.now = after
  have hmoved : ∀ id ∈ ids, StandsOn after (page.dir ++ '/' :: target) id := by
    intro id hid
    obtain ⟨r, hr, hactive, -⟩ := hstand id hid
    obtain ⟨r₁, hr₁, hactive₁, -⟩ := get?_pointAt hr hactive
    obtain ⟨r₂, hr₂, hactive₂, hpath, -⟩ := get?_pointAt hr₁ hactive₁
    rw [← hafter]
    exact ⟨r₂, hr₂, hactive₂, hpath hid⟩
  have hstays : ∀ id, id ∉ ids → after.get? id = before.get? id := by
    intro id hid
    rw [← hafter, get?_pointAt_of_notMem hid, get?_pointAt_of_notMem hid]
  have hsource : ∀ id, StandsOn after page.sourcePath id ↔
      StandsOn before page.sourcePath id ∧ id ∉ ids := by
    intro id
    by_cases hid : id ∈ ids
    · refine iff_of_false ?_ fun h => h.2 hid
      rintro ⟨r, hr, -, hpath⟩
      obtain ⟨r', hr', -, hpath'⟩ := hmoved id hid
      rw [hr, Option.some.injEq] at hr'
      rw [← hr', hpath] at hpath'
      exact hne hpath'.symm
    · simp [StandsOn, hstays id hid, hid]
  constructor
  · intro h
    obtain ⟨id, hid⟩ := h.source
    exact ⟨id, (hsource id).mp hid⟩
  · rintro ⟨id, hid, hnew⟩
    refine ⟨⟨id, (hsource id).mpr ⟨hid, hnew⟩⟩, ?_, ?_, hname, hne⟩
    · obtain ⟨row, rest, hrow⟩ := List.exists_cons_of_ne_nil hsome
      refine ⟨row.factId, hmoved _ ?_⟩
      rw [← hids, hrow]
      exact List.mem_cons_self
    · intro k
      rw [← hnames k]
      constructor
      · rintro ⟨r, r', hr, hr', hpath⟩
        have hk : k ∈ ids := by
          by_contra hk
          rw [hstays k hk, hr, Option.some.injEq] at hr'
          exact hpath (by rw [hr'])
        obtain ⟨r'', hr'', hactive, -⟩ := hstand k hk
        exact ⟨hk, r'', hr'', hactive⟩
      · rintro ⟨hk, -⟩
        obtain ⟨r, hr, -, hpath⟩ := hstand k hk
        obtain ⟨r', hr', -, hpath'⟩ := hmoved k hk
        exact ⟨r, r', hr, hr', by rw [hpath, hpath']; exact hne⟩

/-! ## A page of three facts -/

/-- Another fact about Alice. -/
def thirdFact : NewFact :=
  { olderFact with factId := ⟨"018f1234-5678-7abc-9def-0123456789ad".toList, isFactId_ad⟩ }

/-- The index of the page. -/
def threeFacts : FactTable := (quietNight [olderFact, newerFact, thirdFact]).facts

/-- The page as it is read; the floor of a page to split is set to three facts. -/
def threeFactPage : SeatedPage where
  wikiId := "alice".toList
  sourcePath := "wikis/alice/notes.md".toList
  facts := threeFacts.rows
  pageInWiki := some "notes.md".toList
  heavyEnoughToSplit := true
  dir := "wikis/alice".toList
  seated := by
    rintro page h
    obtain rfl := Option.some.inj h
    rfl

/-- A night whose pages are in step with the index. -/
def nightBench : Bench ℤ ℕ where
  chrono := sampleChrono
  lib := sampleLibrary
  staged := nothingStaged
  depth := .nightly
  memoryNow := 1781085600000
  now := "2026-06-12T03:00:00Z".toList
  reindexed facts := facts

/-- The first fact is the second again, and some go to a page of their own. -/
def mergeAndSplit (markers : List Str) : PageDecision where
  verdicts := [("f1".toList, { verdict := "duplicate_of".toList, target := some "f2".toList })]
  split := some { title := none, markers }

/-- Of three facts one is merged away, one moves, and one is left. -/
theorem split_leaves_the_third :
    LeavesBoth threeFactPage { title := none, markers := ["f2".toList] }
      "the_shop_is_open.md".toList
      (nightBench.applyVerdicts threeFactPage.toJudgedPage threeFacts []
        (mergeAndSplit ["f2".toList])).facts
      (nightBench.applyPageDecision threeFactPage threeFacts [] (mergeAndSplit ["f2".toList])
        (.written fun _ => (some 0, some 20))).1 :=
  (split_leaves_both_iff nightBench threeFactPage threeFacts [] (mergeAndSplit ["f2".toList])
    (.written fun _ => (some 0, some 20)) rfl (by decide +kernel)).mpr (by decide +kernel)

/-- When the other two move, the split is applied and the page is left without a fact. -/
theorem split_leaves_nothing :
    (nightBench.applyPageDecision threeFactPage threeFacts []
        (mergeAndSplit ["f2".toList, "f3".toList]) (.written fun _ => (some 0, some 20))).2.2 =
          .applied "the_shop_is_open.md".toList ∧
      ¬ LeavesBoth threeFactPage { title := none, markers := ["f2".toList, "f3".toList] }
        "the_shop_is_open.md".toList
        (nightBench.applyVerdicts threeFactPage.toJudgedPage threeFacts []
          (mergeAndSplit ["f2".toList, "f3".toList])).facts
        (nightBench.applyPageDecision threeFactPage threeFacts []
          (mergeAndSplit ["f2".toList, "f3".toList]) (.written fun _ => (some 0, some 20))).1 := by
  refine ⟨by decide +kernel, ?_⟩
  intro h
  obtain ⟨id, hid⟩ := h.source
  have hnone : findActiveBySourcePath (nightBench.applyPageDecision threeFactPage threeFacts []
      (mergeAndSplit ["f2".toList, "f3".toList]) (.written fun _ => (some 0, some 20))).1
        threeFactPage.sourcePath = [] := by
    decide +kernel
  rw [← mem_ids_findActiveBySourcePath, hnone] at hid
  cases hid

end Rem

end Mwe
