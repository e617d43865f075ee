import MweCore.FactIndex.Access
import MweCore.Lib.Effect
import MweCore.Lib.Rank

/-!
# The words a memory is about

A fact carries topic words.  A word is broad because facts hang off it: the words on the facts that
stand are counted, and the ones most used are the macrotopics.  Nothing of the ranking is stored.
Sixteen words have a place at any moment, and one that loses its place loses it to a word that was
found on more facts than before (`chair_lost_to_riser`).

At night the words that say the same thing are merged.  Vectors nominate pairs, a model decides, and
the facts that carry the word with fewer facts get the other one.  `night_takes_what_it_reports`
says which words the memory is left with, whatever the model replies and whichever write fails.
-/

namespace Mwe

namespace TopicRank

open Sql Rank

/-! ## The ranking -/

/-- How many words are macrotopics at any moment. -/
def macrotopicSlots : ℕ := 16

/-- The words the engine writes into the column for its own bookkeeping begin so. -/
def enginePrefixes : List Str := ["signpost-".toList, "project-signpost".toList]

/-- A word and how many facts carry it. -/
structure WordCount where
  word : Str
  facts : ℕ
  deriving DecidableEq

/-- The words on the facts that stand. -/
def liveWords (facts : FactTable) : List Str :=
  ((facts.rows.filter FactRow.isActive).flatMap FactRow.topics).filter fun w => !w.isEmpty

/-- Whether a word is a topic: neither the engine's own nor the id of somebody who is enrolled. -/
def isTopic (partnerTags : List Str) (word : Str) : Bool :=
  !(enginePrefixes.any fun p => p.isPrefixOf word) && !partnerTags.contains word

/-- How many facts a topic is found on. -/
def attested (facts : FactTable) (partnerTags : List Str) (word : Str) : ℕ :=
  if isTopic partnerTags word then (liveWords facts).count word else 0

/-- What the words are ordered by: the most facts first, then alphabetically. -/
def WordCount.standing (c : WordCount) : Lex (ℕᵒᵈ × Str) := toLex (OrderDual.toDual c.facts, c.word)

/-- Every topic with its count, most used first. -/
def countWords (facts : FactTable) (partnerTags : List Str) : List WordCount :=
  rank WordCount.standing (((liveWords facts).dedup.filter (isTopic partnerTags)).map fun w =>
    ⟨w, (liveWords facts).count w⟩)

/-- The topics that have a place. -/
def macrotopics (facts : FactTable) (partnerTags : List Str) : List WordCount :=
  (countWords facts partnerTags).take macrotopicSlots

section Ranking

variable {facts facts' : FactTable} {tags tags' : List Str}
  {w : Str}

/-- The topics of a memory. -/
def topicsOf (facts : FactTable) (tags : List Str) : List Str :=
  (liveWords facts).dedup.filter (isTopic tags)

/-- The order of the topics of a memory. -/
def order (facts : FactTable) (tags : List Str) (w : Str) : Lex (ℕᵒᵈ × Str) :=
  toLex (OrderDual.toDual (attested facts tags w), w)

lemma order_injective (facts : FactTable) (tags : List Str) :
    Function.Injective (order facts tags) := by
  intro a b h
  exact congrArg (fun x => (ofLex x).2) h

lemma order_lt_iff {v : Str} : order facts tags w < order facts tags v ↔
    attested facts tags v < attested facts tags w ∨
      attested facts tags w = attested facts tags v ∧ w < v := by
  simp [order, Prod.Lex.toLex_lt_toLex]

lemma mem_topicsOf_iff : w ∈ topicsOf facts tags ↔ 0 < attested facts tags w := by
  simp only [topicsOf, attested, List.mem_filter, List.mem_dedup]
  split_ifs with h
  · simp [h]
  · simp [h]

lemma nodup_topicsOf (facts : FactTable) (tags : List Str) : (topicsOf facts tags).Nodup :=
  (List.nodup_dedup _).filter _

/-- The words of the ranking are the topics in their order. -/
lemma map_word_countWords (facts : FactTable) (tags : List Str) :
    (countWords facts tags).map WordCount.word = rank (order facts tags) (topicsOf facts tags) := by
  have hstanding : ∀ w ∈ topicsOf facts tags,
      WordCount.standing ⟨w, (liveWords facts).count w⟩ = order facts tags w := by
    intro w hw
    have htopic : isTopic tags w = true := (List.mem_filter.mp hw).2
    simp [WordCount.standing, order, attested, htopic]
  have hsorted : countWords facts tags = (rank (order facts tags) (topicsOf facts tags)).map
      fun w => ⟨w, (liveWords facts).count w⟩ := by
    refine (List.map_insertionSort _ _ _ _ fun a ha b hb => ?_).symm
    rw [hstanding a ha, hstanding b hb]
  rw [hsorted, List.map_map]
  exact List.map_id _

/-- Whether a topic has a place. -/
lemma mem_macrotopics_iff : w ∈ (macrotopics facts tags).map WordCount.word ↔
    w ∈ best (order facts tags) macrotopicSlots (topicsOf facts tags) := by
  rw [macrotopics, List.map_take, map_word_countWords, best]

end Ranking

/-- A fact with some words. -/
def worded (factId : FactId) (topics : List Str) : FactRow where
  factId
  wikiId := "alice".toList
  sourcePath := "wikis/alice/garden.md".toList
  text := "The roses bloom.".toList
  subjectId := .user "alice".toList
  factType := none
  topics
  validFrom := none
  validTo := none
  updatedAt := "2026-07-01T12:00:00Z".toList

/-- Sixteen words. -/
def sixteen : List Str := "abcdefghijklmnop".toList.map fun c => [c]

/-- One fact with all of them. -/
def oneFact : FactTable :=
  ⟨[worded ⟨"018f1234-5678-7abc-9def-0123456789ab".toList, isFactId_ab⟩ sixteen],
    List.nodup_singleton _⟩

/-- A second fact, and a word that both carry. -/
def twoFacts : FactTable :=
  ⟨[worded ⟨"018f1234-5678-7abc-9def-0123456789ab".toList, isFactId_ab⟩ (sixteen ++ [['q']]),
    worded ⟨"018f1234-5678-7abc-9def-0123456789ac".toList, isFactId_ac⟩ [['q']]],
    List.nodup_cons.mpr ⟨fun h => by
      have hlast := congrArg (fun f : FactId => f.val.getLast?) (List.mem_singleton.mp h)
      simp [worded] at hlast, List.nodup_singleton _⟩⟩

/-- The words of a fact with one in place of another; what is there twice stays once. -/
def rewriteTopics (loser winner : Str) (current : List Str) : List Str :=
  current.foldl (fun next w =>
    let w := if w = loser then winner else w
    if w ∈ next then next else next ++ [w]) []

/-- The facts that stand and carry a word. -/
def carriers (facts : FactTable) (word : Str) : List FactRow :=
  facts.rows.filter fun r => r.isActive && r.topics.contains word

/-- Write the words of one of them, as they were read. -/
def putTopics (loser winner : Str) (facts : FactTable) (row : FactRow) : FactTable :=
  facts.update (fun r => r.factId == row.factId)
    (fun r => { r with topics := rewriteTopics loser winner row.topics }) fun _ => rfl

/-- Rewrite a word on every fact that carries it; a write that fails ends it. -/
def rewriteWord (stop : Option (ℕ × Str)) (loser winner : Str) (facts : FactTable) :
    FactTable × Except Str ℕ :=
  let rows := carriers facts loser
  match stop with
  | some (n, e) =>
    if n = 0 ∨ n < rows.length then ((rows.take n).foldl (putTopics loser winner) facts, .error e)
    else (rows.foldl (putTopics loser winner) facts, .ok rows.length)
  | none => (rows.foldl (putTopics loser winner) facts, .ok rows.length)

/-- What a night leaves of a fact: all but its words, and one that is retired as it was. -/
def SameFact (r r' : FactRow) : Prop :=
  r' = { r with topics := r'.topics } ∧ (r.isActive = false → r' = r)

section Rewriting

variable {facts facts' : FactTable} {loser winner w : Str} {rows : List FactRow}
  {r r' r'' : FactRow}

lemma mem_rewriteTopics {current : List Str} : w ∈ rewriteTopics loser winner current ↔
    ∃ x ∈ current, (if x = loser then winner else x) = w := by
  have hfold : ∀ next : List Str, w ∈ current.foldl (fun next w =>
      let w := if w = loser then winner else w
      if w ∈ next then next else next ++ [w]) next ↔
        w ∈ next ∨ ∃ x ∈ current, (if x = loser then winner else x) = w := by
    induction current with
    | nil => simp
    | cons x current ih =>
      intro next
      rw [List.foldl_cons, ih, List.exists_mem_cons_iff, ← or_assoc]
      refine or_congr_left ?_
      dsimp only
      by_cases hin : (if x = loser then winner else x) ∈ next
      · rw [if_pos hin]
        exact ⟨.inl, fun h => h.elim id fun heq => heq ▸ hin⟩
      · rw [if_neg hin, List.mem_append, List.mem_singleton, eq_comm (a := w)]
  rw [rewriteTopics, hfold]
  simp

lemma SameFact.refl (r : FactRow) : SameFact r r := ⟨rfl, fun _ => rfl⟩

lemma SameFact.isActive_eq (h : SameFact r r') : r'.isActive = r.isActive := by
  rw [h.1]
  rfl

lemma SameFact.trans (h : SameFact r r') (h' : SameFact r' r'') : SameFact r r'' := by
  refine ⟨?_, fun hretired => ?_⟩
  · rw [h'.1, h.1]
  · rw [h'.2 (h.isActive_eq.trans hretired), h.2 hretired]

/-- A row as a rewrite that reaches some facts leaves it. -/
def reworded (loser winner : Str) (ids : List FactId) (r : FactRow) : FactRow :=
  if r.factId ∈ ids then { r with topics := rewriteTopics loser winner r.topics } else r

lemma mem_putTopics {row : FactRow} (hr : r ∈ facts) (hother : r.factId ≠ row.factId) :
    r ∈ putTopics loser winner facts row := by
  rw [putTopics, Table.mem_update_iff]
  exact ⟨r, hr, by simp [hother]⟩

/-- The writes reach the rows they were read for. -/
lemma rows_foldl_putTopics (loser winner : Str) (hrows : ∀ r ∈ rows, r ∈ facts)
    (hnodup : (rows.map FactRow.factId).Nodup) :
    (rows.foldl (putTopics loser winner) facts).rows =
      facts.rows.map (reworded loser winner (rows.map FactRow.factId)) := by
  induction rows generalizing facts with
  | nil =>
    have hsame : reworded loser winner ([].map FactRow.factId) = id := by
      funext r
      simp [reworded]
    rw [hsame, List.map_id]
    rfl
  | cons row rows ih =>
    obtain ⟨hfresh, hnodup⟩ := List.nodup_cons.mp hnodup
    have hrow : row ∈ facts := hrows row List.mem_cons_self
    have hother : ∀ r ∈ rows, r.factId ≠ row.factId := fun r hr heq =>
      hfresh (heq ▸ List.mem_map_of_mem hr)
    rw [List.foldl_cons, ih (fun r hr => mem_putTopics (hrows r (List.mem_cons_of_mem _ hr))
      (hother r hr)) hnodup]
    change (List.map _ facts.rows).map _ = _
    rw [List.map_map]
    refine List.map_congr_left fun r hr => ?_
    by_cases heq : r.factId = row.factId
    · obtain rfl : r = row := Table.eq_of_key_eq hr hrow heq
      simp [reworded, hfresh]
    · simp [reworded, heq]

/-- The facts a rewrite reads, each once. -/
lemma nodup_carriers (facts : FactTable) (w : Str) :
    ((carriers facts w).map FactRow.factId).Nodup :=
  facts.nodup.sublist (List.filter_sublist.map _)

lemma mem_carriers_iff : r ∈ carriers facts w ↔ r ∈ facts ∧ r.isActive = true ∧ w ∈ r.topics := by
  simp [carriers, Table.mem_iff]

lemma mem_liveWords_iff : w ∈ liveWords facts ↔
    w ≠ [] ∧ ∃ r ∈ facts, r.isActive = true ∧ w ∈ r.topics := by
  simp only [liveWords, List.mem_filter, List.mem_flatMap, Table.mem_iff]
  aesop

/-- What a rewrite of some of the carriers of a word does to the words of the memory: the other
words stay, and this one goes when it was rewritten everywhere. -/
lemma mem_liveWords_rewritten {read : List FactRow} (hread : read.Sublist (carriers facts loser))
    (hne : winner ≠ loser) (hwinner : winner ∈ liveWords facts)
    (hrows : facts'.rows = facts.rows.map (reworded loser winner (read.map FactRow.factId))) :
    w ∈ liveWords facts' ↔ w ∈ liveWords facts ∧
      (w = loser → ∃ r ∈ carriers facts loser, r ∉ read) := by
  have hmem : ∀ r ∈ facts, r.factId ∈ read.map FactRow.factId ↔ r ∈ read := by
    intro r hr
    refine ⟨fun hid => ?_, fun hread => List.mem_map_of_mem hread⟩
    obtain ⟨q, hq, heq⟩ := List.mem_map.mp hid
    obtain rfl : q = r :=
      Table.eq_of_key_eq (mem_carriers_iff.mp (hread.subset hq)).1 hr heq
    exact hq
  have hlive : w ∈ liveWords facts' ↔ w ≠ [] ∧ ∃ r ∈ facts, r.isActive = true ∧
      w ∈ (reworded loser winner (read.map FactRow.factId) r).topics := by
    have hactive : ∀ r, (reworded loser winner (read.map FactRow.factId) r).isActive =
        r.isActive := by
      intro r
      rw [reworded]
      split_ifs <;> rfl
    rw [mem_liveWords_iff]
    simp only [Table.mem_iff, hrows, List.mem_map, exists_exists_and_eq_and, hactive]
  rw [hlive]
  constructor
  · rintro ⟨hw, r, hr, hactive, hin⟩
    rw [reworded] at hin
    split_ifs at hin with hid
    · obtain ⟨x, hx, rfl⟩ := mem_rewriteTopics.mp hin
      split_ifs with hloser
      · exact ⟨hwinner, fun heq => absurd heq hne⟩
      · rw [if_neg hloser] at hw
        exact ⟨mem_liveWords_iff.mpr ⟨hw, r, hr, hactive, hx⟩, fun heq => absurd heq hloser⟩
    · refine ⟨mem_liveWords_iff.mpr ⟨hw, r, hr, hactive, hin⟩, ?_⟩
      rintro rfl
      exact ⟨r, mem_carriers_iff.mpr ⟨hr, hactive, hin⟩, mt (hmem r hr).mpr hid⟩
  · rintro ⟨hin, hleft⟩
    obtain ⟨hw, r, hr, hactive, htopic⟩ := mem_liveWords_iff.mp hin
    refine ⟨hw, ?_⟩
    by_cases hloser : w = loser
    · obtain ⟨q, hq, hunread⟩ := hleft hloser
      obtain ⟨hqfacts, hqactive, hqtopic⟩ := mem_carriers_iff.mp hq
      refine ⟨q, hqfacts, hqactive, ?_⟩
      rw [reworded, if_neg (mt (hmem q hqfacts).mp hunread), hloser]
      exact hqtopic
    · refine ⟨r, hr, hactive, ?_⟩
      rw [reworded]
      split_ifs
      · exact mem_rewriteTopics.mpr ⟨w, htopic, if_neg hloser⟩
      · exact htopic

/-- A rewrite reads the carriers in order, and it fails exactly when it leaves one out. -/
lemma rewriteWord_eq (winner : Str) (stop : Option (ℕ × Str)) (hloser : loser ∈ liveWords facts) :
    ∃ read : List FactRow, read.Sublist (carriers facts loser) ∧
      (rewriteWord stop loser winner facts).1 = read.foldl (putTopics loser winner) facts ∧
      ((∃ e, (rewriteWord stop loser winner facts).2 = .error e) ↔
        ∃ r ∈ carriers facts loser, r ∉ read) := by
  have hdone : (∃ e, (Except.ok (carriers facts loser).length : Except Str ℕ) = .error e) ↔
      ∃ r ∈ carriers facts loser, r ∉ carriers facts loser := by simp
  cases stop with
  | none => exact ⟨carriers facts loser, .refl _, rfl, hdone⟩
  | some at? =>
    obtain ⟨n, e⟩ := at?
    by_cases hstop : n = 0 ∨ n < (carriers facts loser).length
    · refine ⟨(carriers facts loser).take n, List.take_sublist _ _, ?_, ?_⟩
      · rw [rewriteWord, if_pos hstop]
      · rw [rewriteWord, if_pos hstop]
        refine iff_of_true ⟨e, rfl⟩ ?_
        obtain ⟨-, r, hr, hactive, htopic⟩ := mem_liveWords_iff.mp hloser
        have hcarrier := mem_carriers_iff.mpr ⟨hr, hactive, htopic⟩
        by_contra hall
        push Not at hall
        have hlong := (List.subperm_of_subset ((nodup_carriers facts loser).of_map _)
          fun r hr => hall r hr).length_le
        have hpos := List.length_pos_of_mem hcarrier
        rw [List.length_take] at hlong
        omega
    · exact ⟨carriers facts loser, .refl _, by rw [rewriteWord, if_neg hstop],
        by rw [rewriteWord, if_neg hstop]; exact hdone⟩

/-- What a rewrite leaves of the memory. -/
lemma rewriteWord_spec (stop : Option (ℕ × Str)) (hne : winner ≠ loser)
    (hwinner : winner ∈ liveWords facts) (hloser : loser ∈ liveWords facts) :
    (∀ w, w ∈ liveWords (rewriteWord stop loser winner facts).1 ↔ w ∈ liveWords facts ∧
      (w = loser → ∃ e, (rewriteWord stop loser winner facts).2 = .error e)) ∧
    List.Forall₂ SameFact facts.rows (rewriteWord stop loser winner facts).1.rows := by
  obtain ⟨read, hread, htable, hleft⟩ := rewriteWord_eq winner stop hloser
  have hrows := rows_foldl_putTopics loser winner
    (fun r hr => (mem_carriers_iff.mp (hread.subset hr)).1)
    ((nodup_carriers facts loser).sublist (hread.map _))
  rw [htable]
  refine ⟨fun w => ?_, ?_⟩
  · rw [mem_liveWords_rewritten hread hne hwinner hrows, hleft]
  · rw [hrows, List.forall₂_map_right_iff, List.forall₂_same]
    intro r hr
    rw [reworded]
    split_ifs with hid
    · refine ⟨rfl, fun hretired => ?_⟩
      obtain ⟨q, hq, heq⟩ := List.mem_map.mp hid
      obtain ⟨hqfacts, hqactive, -⟩ := mem_carriers_iff.mp (hread.subset hq)
      obtain rfl : q = r := Table.eq_of_key_eq hqfacts hr heq
      rw [hqactive] at hretired
      cases hretired
    · exact .refl r

end Rewriting

/-! ## The night -/

/-- What the embedder, the model and the store answer in a night. -/
structure Answers (V : Type*) where
  embed : Str → Except Str V
  /-- whether two vectors are as near as `MERGE_THRESHOLD` -/
  near : V → V → Bool
  /-- the system half of the prompt -/
  system : Except Str Str
  /-- the reply to the n-th call -/
  complete : ℕ → Str → Except Str Str
  /-- the boolean under a key of a JSON object -/
  boolAt : Str → Str → Option Bool
  /-- after how many writes the n-th rewrite fails, and why -/
  stops : ℕ → Option (ℕ × Str)

/-- What one night's merging did: the pairs that reached the model; the loser, the winner and the
facts moved of each that it confirmed; and the failures. -/
structure TopicMergeReport where
  examined : ℕ := 0
  merged : List (Str × Str × ℕ) := []
  errors : List Str := []

/-- Every pair of a list, the earlier of the two first. -/
def pairsOf {α : Type*} : List α → List (α × α)
  | [] => []
  | a :: l => l.map (fun b => (a, b)) ++ pairsOf l

/-- The pairs near enough to be worth asking about, those that would move the most facts first. -/
def nominatePairs {V : Type*} (near : V → V → Bool) (words : List (WordCount × V)) :
    List (WordCount × WordCount) :=
  (((pairsOf words).filter fun p => near p.1.2 p.2.2).map fun p => (p.1.1, p.2.1)).insertionSort
    fun p q => min q.1.facts q.2.facts ≤ min p.1.facts p.2.facts

/-- The winner and the loser of a pair: the word with more facts wins, then the earlier one. -/
def winnerLoser (p : WordCount × WordCount) : WordCount × WordCount :=
  if p.1.facts < p.2.facts ∨ p.1.facts = p.2.facts ∧ p.2.word < p.1.word then (p.2, p.1) else p

/-- Read a reply, tolerant of prose around the object. -/
def firstBool (boolAt : Str → Str → Option Bool) (raw key : Str) : Option Bool :=
  let rest := raw.dropWhile fun c => c ≠ '{'
  let body := rest.takeWhile fun c => c ≠ '}'
  if body.length < rest.length then boolAt (body ++ ['}']) key else none

/-- The question about a pair. -/
def mergePrompt (winner loser : WordCount) : Str :=
  "WORD A: `".toList ++ winner.word ++ "` — ".toList ++ (toString winner.facts).toList ++
    " facts\nWORD B: `".toList ++ loser.word ++ "` — ".toList ++ (toString loser.facts).toList ++
    " facts\n".toList

/-- How far a night has come. -/
structure Night where
  facts : FactTable
  settled : List Str := []
  report : TopicMergeReport := {}

/-- The night with one more failure. -/
def Night.failed (night : Night) (error : Str) : Night :=
  { night with report := { night.report with errors := night.report.errors ++ [error] } }

/-- Ask about one pair. -/
def judge {V : Type*} (answers : Answers V) (cap : ℕ) (night : Night)
    (pair : WordCount × WordCount) : Night :=
  if cap ≤ night.report.examined then night
  else if pair.1.word ∈ night.settled ∨ pair.2.word ∈ night.settled then night
  else
    let (winner, loser) := winnerLoser pair
    let n := night.report.examined
    let asked : Night := { night with report := { night.report with examined := n + 1 } }
    match answers.complete n (mergePrompt winner loser) with
    | .error e => asked.failed ("merge: `".toList ++ pair.1.word ++ "`/`".toList ++ pair.2.word ++
        "`: ".toList ++ e)
    | .ok text =>
      if (firstBool answers.boolAt text "same".toList).getD false then
        match rewriteWord (answers.stops n) loser.word winner.word night.facts with
        | (facts, .ok moved) =>
          { facts
            settled := loser.word :: night.settled
            report := { asked.report with
              merged := asked.report.merged ++ [(loser.word, winner.word, moved)] } }
        | (facts, .error e) =>
          { asked with facts }.failed ("merge: rewrite `".toList ++ loser.word ++ "`: ".toList ++ e)
      else asked

/-- Embed the words, one after the other; the first failure ends it. -/
def embedAll {V : Type*} (embed : Str → Except Str V) (words : List WordCount) :
    Except Str (List (WordCount × V)) :=
  words.mapM fun c =>
    match embed c.word with
    | .ok v => .ok (c, v)
    | .error e => .error ("merge: cannot embed `".toList ++ c.word ++ "`: ".toList ++ e)

/-- Merge the near-duplicates of the vocabulary. -/
def mergeNearDuplicates {V : Type*} (answers : Answers V) (cap : ℕ) (partnerTags : List Str)
    (facts : FactTable) : Night :=
  let words := countWords facts partnerTags
  if cap = 0 ∨ words.length < 2 then { facts }
  else match embedAll answers.embed words with
    | .error e => { facts : Night }.failed e
    | .ok embedded =>
      match answers.system with
      | .error e => { facts : Night }.failed ("merge: prompt unreadable: ".toList ++ e)
      | .ok _ => (nominatePairs answers.near embedded).foldl (judge answers cap) { facts }

section Nights

variable {V : Type*} {answers : Answers V} {cap : ℕ} {facts : FactTable} {tags : List Str}
  {night : Night} {pair : WordCount × WordCount}

lemma sublist_of_mem_pairsOf {α : Type*} {l : List α} {p : α × α} (h : p ∈ pairsOf l) :
    [p.1, p.2].Sublist l := by
  induction l with
  | nil => cases h
  | cons a l ih =>
    rcases List.mem_append.mp h with h | h
    · obtain ⟨b, hb, rfl⟩ := List.mem_map.mp h
      exact (List.singleton_sublist.mpr hb).cons_cons a
    · exact (ih h).cons a

lemma map_fst_embedAll {embed : Str → Except Str V} {words : List WordCount}
    {embedded : List (WordCount × V)} (h : embedAll embed words = .ok embedded) :
    embedded.map Prod.fst = words := by
  unfold embedAll at h
  induction words generalizing embedded with
  | nil =>
    obtain rfl : [] = embedded := Except.ok.inj h
    rfl
  | cons c words ih =>
    rw [List.mapM_cons] at h
    obtain ⟨one, hone, h⟩ := Effect.except_bind_ok_iff.mp h
    obtain ⟨rest, hrest, h⟩ := Effect.except_bind_ok_iff.mp h
    obtain rfl : one :: rest = embedded := Except.ok.inj h
    have hc : one.1 = c := by
      split at hone
      · rw [← Except.ok.inj hone]
      · cases hone
    rw [List.map_cons, ih hrest, hc]

/-- Both words of a pair that is asked about are words of the memory, and they differ. -/
lemma of_mem_nominatePairs {embedded : List (WordCount × V)}
    (hwords : embedded.map Prod.fst = countWords facts tags)
    (h : pair ∈ nominatePairs answers.near embedded) :
    pair.1.word ∈ liveWords facts ∧ pair.2.word ∈ liveWords facts ∧
      pair.1.word ≠ pair.2.word := by
  rw [nominatePairs, List.mem_insertionSort, List.mem_map] at h
  obtain ⟨q, hq, rfl⟩ := h
  have hsub : [q.1.1.word, q.2.1.word].Sublist ((countWords facts tags).map WordCount.word) := by
    rw [← hwords, List.map_map]
    exact List.Sublist.map (WordCount.word ∘ Prod.fst)
      (sublist_of_mem_pairsOf (List.mem_of_mem_filter hq))
  rw [map_word_countWords] at hsub
  have hlive : ∀ w ∈ [q.1.1.word, q.2.1.word], w ∈ liveWords facts := fun w hw =>
    List.mem_dedup.mp (List.mem_of_mem_filter (mem_rank.mp (hsub.subset hw)))
  have hnodup := hsub.nodup ((perm_rank _ _).nodup_iff.mpr (nodup_topicsOf facts tags))
  exact ⟨hlive _ (by simp), hlive _ (by simp), by simpa using hnodup⟩

/-- What a night keeps while it goes on. -/
structure Kept (facts : FactTable) (cap : ℕ) (night : Night) : Prop where
  words : ∀ w, w ∈ liveWords night.facts ↔ w ∈ liveWords facts ∧ w ∉ night.settled
  settled : night.settled = (night.report.merged.map Prod.fst).reverse
  nodup : night.settled.Nodup
  live : ∀ m ∈ night.report.merged, m.1 ∈ liveWords facts ∧ m.2.1 ∈ liveWords facts
  asked : night.report.merged.length ≤ night.report.examined
  capped : night.report.examined ≤ cap
  same : List.Forall₂ SameFact facts.rows night.facts.rows

lemma Kept.start (facts : FactTable) (cap : ℕ) : Kept facts cap { facts } where
  words w := by simp
  settled := rfl
  nodup := List.nodup_nil
  live m hm := by cases hm
  asked := le_rfl
  capped := Nat.zero_le cap
  same := List.forall₂_same.mpr fun r _ => .refl r

lemma Kept.failed (h : Kept facts cap night) (e : Str) : Kept facts cap (night.failed e) :=
  ⟨h.words, h.settled, h.nodup, h.live, h.asked, h.capped, h.same⟩

lemma forall₂_sameFact_trans {l₁ l₂ l₃ : List FactRow} (h : List.Forall₂ SameFact l₁ l₂)
    (h' : List.Forall₂ SameFact l₂ l₃) : List.Forall₂ SameFact l₁ l₃ := by
  induction h generalizing l₃ with
  | nil => exact h'
  | cons h _ ih =>
    obtain ⟨r, rest, hr, hrest, rfl⟩ := List.forall₂_cons_left_iff.mp h'
    exact .cons (h.trans hr) (ih hrest)

lemma winnerLoser_cases (p : WordCount × WordCount) : winnerLoser p = p ∨
    winnerLoser p = (p.2, p.1) := by
  unfold winnerLoser
  split_ifs
  · exact .inr rfl
  · exact .inl rfl

/-- A pair that is asked about leaves the night as it should be. -/
lemma Kept.judge (h : Kept facts cap night) (hfirst : pair.1.word ∈ liveWords facts)
    (hsecond : pair.2.word ∈ liveWords facts) (hne : pair.1.word ≠ pair.2.word) :
    Kept facts cap (judge answers cap night pair) := by
  unfold TopicRank.judge
  split_ifs with hcap hsettled
  · exact h
  · exact h
  push Not at hcap hsettled
  obtain ⟨⟨winner, loser⟩, hpair⟩ : ∃ p, winnerLoser pair = p := ⟨_, rfl⟩
  have hboth : (winner.word ∈ liveWords facts ∧ loser.word ∈ liveWords facts) ∧
      (winner.word ∉ night.settled ∧ loser.word ∉ night.settled) ∧ winner.word ≠ loser.word := by
    rcases winnerLoser_cases pair with heq | heq
    · obtain rfl : pair = (winner, loser) := heq.symm.trans hpair
      exact ⟨⟨hfirst, hsecond⟩, hsettled, hne⟩
    · obtain ⟨rfl, rfl⟩ := Prod.mk.inj (heq.symm.trans hpair)
      exact ⟨⟨hsecond, hfirst⟩, hsettled.symm, hne.symm⟩
  obtain ⟨⟨hwinner, hloser⟩, ⟨hwinnerFree, hloserFree⟩, hdiffer⟩ := hboth
  rw [hpair]
  dsimp only
  have hasked : Kept facts cap { night with
      report := { night.report with examined := night.report.examined + 1 } } :=
    ⟨h.words, h.settled, h.nodup, h.live, h.asked.trans (Nat.le_succ _), hcap, h.same⟩
  split
  · exact hasked.failed _
  split_ifs with hsame
  swap
  · exact hasked
  obtain ⟨hwords, hrows⟩ := rewriteWord_spec (answers.stops night.report.examined) hdiffer
    ((h.words _).mpr ⟨hwinner, hwinnerFree⟩) ((h.words _).mpr ⟨hloser, hloserFree⟩)
  have hall : List.Forall₂ SameFact facts.rows
      (rewriteWord (answers.stops night.report.examined) loser.word winner.word
        night.facts).1.rows :=
    forall₂_sameFact_trans h.same hrows
  split
  · next table moved hdone =>
    rw [hdone] at hwords hall
    refine ⟨fun w => ?_, ?_, ?_, ?_, ?_, hcap, hall⟩
    · rw [hwords, h.words, List.mem_cons]
      simp only [reduceCtorEq, exists_false, imp_false]
      tauto
    · simp [h.settled]
    · exact List.nodup_cons.mpr ⟨hloserFree, h.nodup⟩
    · intro m hm
      rcases List.mem_append.mp hm with hm | hm
      · exact h.live m hm
      · rw [List.mem_singleton.mp hm]
        exact ⟨hloser, hwinner⟩
    · simpa using h.asked
  · next table e hfailed =>
    rw [hfailed] at hwords hall
    have hnight : Kept facts cap { night with
        facts := table
        report := { night.report with examined := night.report.examined + 1 } } :=
      ⟨fun w => by rw [hwords, h.words]; simp, h.settled, h.nodup, h.live,
        h.asked.trans (Nat.le_succ _), hcap, hall⟩
    exact hnight.failed _

lemma Kept.foldl_judge {pairs : List (WordCount × WordCount)} (h : Kept facts cap night)
    (hpairs : ∀ pair ∈ pairs, pair.1.word ∈ liveWords facts ∧ pair.2.word ∈ liveWords facts ∧
      pair.1.word ≠ pair.2.word) :
    Kept facts cap (pairs.foldl (TopicRank.judge answers cap) night) := by
  induction pairs generalizing night with
  | nil => exact h
  | cons pair pairs ih =>
    obtain ⟨hfirst, hsecond, hne⟩ := hpairs pair List.mem_cons_self
    exact ih (h.judge hfirst hsecond hne) fun p hp => hpairs p (List.mem_cons_of_mem _ hp)

/-- A night takes out of the memory exactly the words it reports as merged away, each once, and of
a fact it changes nothing but the words; it asks no more than it may. -/
theorem night_takes_what_it_reports (answers : Answers V) (cap : ℕ) (tags : List Str)
    (facts : FactTable) :
    Kept facts cap (mergeNearDuplicates answers cap tags facts) := by
  unfold mergeNearDuplicates
  dsimp only
  split_ifs
  · exact .start facts cap
  split
  · exact (Kept.start facts cap).failed _
  next embedded hembedded =>
  split
  · exact (Kept.start facts cap).failed _
  have hpairs : ∀ pair ∈ nominatePairs answers.near embedded, pair.1.word ∈ liveWords facts ∧
      pair.2.word ∈ liveWords facts ∧ pair.1.word ≠ pair.2.word := fun pair hpair =>
    of_mem_nominatePairs (map_fst_embedAll hembedded) hpair
  exact Kept.foldl_judge (.start facts cap) hpairs

end Nights

end TopicRank

end Mwe
