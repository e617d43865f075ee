import MweCore.Dream.Holding
import MweCore.Enrollment.Names
import MweCore.FactIndex.Access
import MweCore.Planner.Names
import MweCore.Recall.Block

/-!
# Scoring the candidates

A candidate's score is the better of what its own words and its link keys earn, weighed down when
its window is closed and up for each of the turn's subjects it covers beyond the first.  The weights
multiply, so they push a score away from zero or towards it.

`signals_push_iff` says when they push the right way: for two candidates alike but for the window
exactly when what they earn is not negative, and the same for the subjects where the cover makes a
difference.  A better link key never lowers a rank.  Scores are exact rationals; the rank of a
candidate is the number of visible ones that score more, so equal scores share a rank.
-/

namespace Mwe

namespace Recall

open Enrollment Sql

/-! ## What a fact covers -/

section Names

variable (f : Folding) (casing : Casing)

/-- Where a name starts among the words, as a whole. -/
def nameAt (tokens name : List Str) : Option ℕ :=
  if name.isEmpty ∨ tokens.length < name.length then none
  else (List.range (tokens.length - name.length + 1)).find? fun i =>
    (tokens.drop i).take name.length == name

/-- The people a fact is about: who may read it, and whom it names. -/
def factMentions (row : FactRow) (roster : List EnrolledUserLite) : Finset Str :=
  let readers := (row.subjectId :: row.allowIds ++ row.senderId.toList).filterMap fun
    | .user u => some (casing.toLowercase u)
    | .group _ => none
  let hay := f.foldedWords row.text :: row.topics.map f.foldedWords
  let named := roster.filter fun u =>
    (namesOf f u).any fun n => hay.any fun h => (nameAt h n).isSome
  (readers ++ named.map fun u => casing.toLowercase u.userId).toFinset

/-- How many of the subjects a fact covers. -/
def covered (row : FactRow) (subjects : List Str) (roster : List EnrolledUserLite) : ℕ :=
  ((factMentions f casing row roster).filter fun m => m ∈ subjects).card

/-- `SUBJECT_COVERAGE_UPLIFT` -/
def subjectCoverageUplift : ℚ := 15 / 100

/-- The weight of the subjects a fact covers. -/
def coverageMultiplier (row : FactRow) (subjects : List Str) (roster : List EnrolledUserLite) : ℚ :=
  if subjects.length < 2 then 1
  else subjectCoverageUplift * (covered f casing row subjects roster - 1 : ℕ) + 1

variable {f casing} {row row' : FactRow} {subjects : List Str} {roster : List EnrolledUserLite}

lemma one_le_coverageMultiplier : 1 ≤ coverageMultiplier f casing row subjects roster := by
  rw [coverageMultiplier]
  split_ifs
  · exact le_rfl
  · rw [subjectCoverageUplift]
    exact le_add_of_nonneg_left (by positivity)

/-- More subjects never weigh less. -/
lemma coverageMultiplier_mono
    (h : covered f casing row subjects roster ≤ covered f casing row' subjects roster) :
    coverageMultiplier f casing row subjects roster ≤
      coverageMultiplier f casing row' subjects roster := by
  rw [coverageMultiplier, coverageMultiplier, subjectCoverageUplift]
  split_ifs
  · exact le_rfl
  · gcongr

end Names

/-! ## Link keys -/

/-- A link key: the facts beside a link, and the vector of its clause. -/
structure LinkKeyRow where
  sourcePath : Str
  target : Str
  covers : List Str
  embedding : Option (List ℚ)

/-- The better of a stored score and one more. -/
def improve (score : ℚ) : Option ℚ → ℚ
  | none => score
  | some s => if s < score then score else s

/-- The best score that a key earns for each of the facts it covers. -/
def bestScores (cosineSimilarity : List ℚ → List ℚ → ℚ) (keys : List LinkKeyRow)
    (query : List ℚ) : Str → Option ℚ :=
  keys.foldl (fun best k =>
    match k.embedding with
    | none => best
    | some v => k.covers.foldl (fun best fact =>
        Function.update best fact (some (improve (cosineSimilarity query v) (best fact)))) best)
    fun _ => none

/-- The key score of one fact is raised, or it gets its first key; the others keep theirs. -/
structure Raises (linkScores linkScores' : Str → Option ℚ) (id : FactId) : Prop where
  raised : ∀ k, linkScores id.val = some k → ∃ k', linkScores' id.val = some k' ∧ k ≤ k'
  others : ∀ j, j ≠ id.val → linkScores' j = linkScores j

/-- One more key for one fact raises its score. -/
lemma raises_bestScores (cosineSimilarity : List ℚ → List ℚ → ℚ) (keys : List LinkKeyRow)
    (query : List ℚ) {key : LinkKeyRow} {id : FactId} (hkey : key.covers = [id.val]) :
    Raises (bestScores cosineSimilarity keys query)
      (bestScores cosineSimilarity (keys ++ [key]) query) id := by
  rw [bestScores, bestScores, List.foldl_append, List.foldl_cons, List.foldl_nil]
  rcases key.embedding with _ | v
  · exact ⟨fun k hk => ⟨k, hk, le_rfl⟩, fun _ _ => rfl⟩
  · rw [hkey]
    refine ⟨fun k hk => ⟨_, Function.update_self .., ?_⟩, fun j hj => Function.update_of_ne hj ..⟩
    rw [hk, improve]
    split_ifs with hlt
    · exact hlt.le
    · exact le_rfl

/-! ## Scores -/

/-- A row of the index with its vector. -/
structure Candidate where
  row : FactRow
  embedding : List ℚ

/-- The id of a candidate. -/
def Candidate.factId (c : Candidate) : FactId := c.row.factId

/-- Who asks. -/
structure SenderContext where
  senderId : Str
  senderGroups : List Str

/-- What a turn brings to the scores. -/
structure Turn (T : Type*) where
  queryEmbedding : List ℚ
  sender : SenderContext
  subjects : List Str
  roster : List EnrolledUserLite
  now : T

/-- The libraries: the similarity of two vectors, the dates, and the folding of words. -/
structure Libraries (T : Type*) where
  cosineSimilarity : List ℚ → List ℚ → ℚ
  chrono : Chrono T
  folding : Folding
  casing : Casing

/-- `CLOSED_WINDOW_DOWNRANK` -/
def closedWindowDownrank : ℚ := 8 / 10

section Score

variable {T : Type*} [LinearOrder T] (lib : Libraries T) (turn : Turn T)
  (linkScores : Str → Option ℚ)

/-- What a candidate's own words earn. -/
def own (c : Candidate) : ℚ := lib.cosineSimilarity turn.queryEmbedding c.embedding

/-- The better of what the words and the keys of a candidate earn. -/
def winner (c : Candidate) : ℚ :=
  match linkScores c.factId.val with
  | none => own lib turn c
  | some k => max (own lib turn c) k

/-- Whether the window of a candidate is closed. -/
def isClosed (c : Candidate) : Bool := windowClosedAt lib.chrono c.row.validTo turn.now

/-- How many of the turn's subjects a candidate covers. -/
def covers (c : Candidate) : ℕ := covered lib.folding lib.casing c.row turn.subjects turn.roster

/-- The weight of the subjects that a candidate covers. -/
def multiplier (c : Candidate) : ℚ :=
  coverageMultiplier lib.folding lib.casing c.row turn.subjects turn.roster

/-- A candidate with its score. -/
def scored (c : Candidate) : Scored ℚ :=
  let s := winner lib turn linkScores c
  let s := if isClosed lib turn c then s * closedWindowDownrank else s
  { score := s * multiplier lib turn c
    linkKeyWin := (linkScores c.factId.val).any fun k => own lib turn c < k
    row := c.row }

/-- The candidates that the sender may read. -/
def visible (candidates : Table Candidate.factId) : List Candidate :=
  candidates.rows.filter fun c =>
    rowReadableBy c.row.acl turn.sender.senderId turn.sender.senderGroups

/-- The visible candidates by their scores, the best first. -/
def ranking (candidates : Table Candidate.factId) : List (Scored ℚ) :=
  ((visible turn candidates).map (scored lib turn linkScores)).insertionSort
    fun a b => b.score ≤ a.score

/-- Score, filter and cut the candidates. -/
def scoreAndFilter (candidates : Table Candidate.factId) (topK : ℕ) (macrotopics : List Str) :
    List (RecallHit ℚ) :=
  takeWithMacrotopicQuota (ranking lib turn linkScores candidates) topK macrotopics

/-- The rank of a candidate: how many of the ranking score more. -/
def rank (candidates : Table Candidate.factId) (c : Candidate) : ℕ :=
  (ranking lib turn linkScores candidates).countP fun d =>
    (scored lib turn linkScores c).score < d.score

/-! ## What the signals push -/

/-- Two visible candidates whose words and keys earn the same. -/
structure Twins (candidates : Table Candidate.factId) (a b : Candidate) : Prop where
  left : a ∈ visible turn candidates
  right : b ∈ visible turn candidates
  own_eq : own lib turn a = own lib turn b
  key_eq : linkScores a.factId.val = linkScores b.factId.val

/-- Twins that cover as much, the second with a closed window and the first with an open one. -/
structure ClosedTwin (candidates : Table Candidate.factId) (a b : Candidate) : Prop extends
    Twins lib turn linkScores candidates a b where
  covers_eq : covers lib turn a = covers lib turn b
  isOpen : isClosed lib turn a = false
  closed : isClosed lib turn b = true

/-- Twins with windows alike, of which the first covers more of the subjects. -/
structure WiderTwin (candidates : Table Candidate.factId) (a b : Candidate) : Prop extends
    Twins lib turn linkScores candidates a b where
  isClosed_eq : isClosed lib turn a = isClosed lib turn b
  covers_lt : covers lib turn b < covers lib turn a

/-- The signals push the way they are meant to. -/
structure Pushes (candidates : Table Candidate.factId) : Prop where
  closed : ∀ a b, ClosedTwin lib turn linkScores candidates a b →
    rank lib turn linkScores candidates a ≤ rank lib turn linkScores candidates b
  wider : ∀ a b, WiderTwin lib turn linkScores candidates a b →
    rank lib turn linkScores candidates a ≤ rank lib turn linkScores candidates b
  raised : ∀ c ∈ visible turn candidates, ∀ linkScores', Raises linkScores linkScores' c.factId →
    rank lib turn linkScores' candidates c ≤ rank lib turn linkScores candidates c

/-- What twins earn is not negative, where a window or a cover tells them apart. -/
structure Upright (candidates : Table Candidate.factId) : Prop where
  closed : ∀ a b, ClosedTwin lib turn linkScores candidates a b → 0 ≤ winner lib turn linkScores a
  wider : ∀ a b, WiderTwin lib turn linkScores candidates a b →
    0 ≤ winner lib turn linkScores a ∨ multiplier lib turn a = multiplier lib turn b

variable {lib turn linkScores} {candidates : Table Candidate.factId} {a b c : Candidate}

/-- The ranking holds the visible candidates, with their scores. -/
lemma perm_ranking : (ranking lib turn linkScores candidates).Perm
    ((visible turn candidates).map (scored lib turn linkScores)) :=
  List.perm_insertionSort _ _

lemma rank_eq : rank lib turn linkScores candidates c =
    (visible turn candidates).countP fun d =>
      (scored lib turn linkScores c).score < (scored lib turn linkScores d).score := by
  rw [rank, perm_ranking.countP_eq, List.countP_map]
  rfl

lemma ranking_sorted : (ranking lib turn linkScores candidates).Pairwise
    fun x y => y.score ≤ x.score := by
  have htotal : Std.Total fun x y : Scored ℚ => y.score ≤ x.score :=
    ⟨fun x y => le_total y.score x.score⟩
  have htrans : IsTrans (Scored ℚ) fun x y => y.score ≤ x.score :=
    ⟨fun x y z hxy hyz => hyz.trans hxy⟩
  exact List.pairwise_insertionSort _ _

/-- With a seat for everybody and no macrotopic, the block is the ranking. -/
lemma scoreAndFilter_of_room {topK : ℕ}
    (hroom : (ranking lib turn linkScores candidates).length ≤ topK) :
    scoreAndFilter lib turn linkScores candidates topK [] =
      (ranking lib turn linkScores candidates).map fun x => x.intoHit .similarity :=
  takeWithMacrotopicQuota_of_room hroom

/-- One element more is counted where the condition is weaker and it alone tells them apart. -/
lemma countP_lt_countP {α : Type*} {p q : α → Bool} {l : List α} {x : α}
    (hpq : ∀ y ∈ l, p y = true → q y = true) (hx : x ∈ l) (hp : p x = false) (hq : q x = true) :
    l.countP p < l.countP q := by
  obtain ⟨before, after, rfl⟩ := List.append_of_mem hx
  have hbefore : before.countP p ≤ before.countP q :=
    List.countP_mono_left fun y hy => hpq y (List.mem_append_left _ hy)
  have hafter : after.countP p ≤ after.countP q :=
    List.countP_mono_left fun y hy =>
      hpq y (List.mem_append_right _ (List.mem_cons_of_mem x hy))
  rw [List.countP_append, List.countP_append, List.countP_cons_of_neg (by simp [hp]),
    List.countP_cons_of_pos hq]
  omega

/-- Of two visible candidates, the one that scores no less ranks no lower. -/
lemma rank_le_rank_iff (hb : b ∈ visible turn candidates) :
    rank lib turn linkScores candidates a ≤ rank lib turn linkScores candidates b ↔
      (scored lib turn linkScores b).score ≤ (scored lib turn linkScores a).score := by
  rw [rank_eq, rank_eq]
  constructor
  · intro hrank
    by_contra hlt
    push Not at hlt
    refine hrank.not_gt (countP_lt_countP (fun d _ hd => ?_) hb ?_ ?_)
    · simp only [decide_eq_true_eq] at hd ⊢
      exact hlt.trans hd
    · simp
    · simpa using hlt
  · intro hle
    refine List.countP_mono_left fun d _ hd => ?_
    simp only [decide_eq_true_eq] at hd ⊢
    exact hle.trans_lt hd

/-! ## The weights -/

lemma score_scored : (scored lib turn linkScores c).score =
    winner lib turn linkScores c * (if isClosed lib turn c then closedWindowDownrank else 1) *
      multiplier lib turn c := by
  rw [scored]
  split_ifs
  · rfl
  · rw [mul_one]

omit [LinearOrder T] in
lemma multiplier_pos : 0 < multiplier lib turn c :=
  zero_lt_one.trans_le one_le_coverageMultiplier

omit [LinearOrder T] in
/-- Twins earn the same. -/
lemma Twins.winner_eq (h : Twins lib turn linkScores candidates a b) :
    winner lib turn linkScores a = winner lib turn linkScores b := by
  rw [winner, winner, h.own_eq, h.key_eq]

/-- A closed window pushes a score towards zero. -/
lemma ClosedTwin.rank_le_iff (h : ClosedTwin lib turn linkScores candidates a b) :
    rank lib turn linkScores candidates a ≤ rank lib turn linkScores candidates b ↔
      0 ≤ winner lib turn linkScores a := by
  have hmul : multiplier lib turn b = multiplier lib turn a := by
    rw [multiplier, multiplier, coverageMultiplier, coverageMultiplier]
    have hcovers := h.covers_eq
    rw [covers, covers] at hcovers
    rw [hcovers]
  rw [rank_le_rank_iff h.right, score_scored, score_scored, h.isOpen, h.closed, hmul,
    ← h.toTwins.winner_eq, if_pos rfl, if_neg (by simp), mul_le_mul_iff_left₀ multiplier_pos,
    closedWindowDownrank]
  constructor <;> intro hle <;> linarith

/-- A wider cover pushes a score away from zero. -/
lemma WiderTwin.rank_le_iff (h : WiderTwin lib turn linkScores candidates a b) :
    rank lib turn linkScores candidates a ≤ rank lib turn linkScores candidates b ↔
      0 ≤ winner lib turn linkScores a ∨ multiplier lib turn a = multiplier lib turn b := by
  have hmul : multiplier lib turn b ≤ multiplier lib turn a :=
    coverageMultiplier_mono h.covers_lt.le
  rw [rank_le_rank_iff h.right, score_scored, score_scored, ← h.isClosed_eq,
    ← h.toTwins.winner_eq]
  set w := if isClosed lib turn a then closedWindowDownrank else 1 with hw
  have hpos : 0 < w := by
    rw [hw, closedWindowDownrank]
    split_ifs <;> norm_num
  constructor
  · intro hle
    rcases hmul.eq_or_lt with heq | hlt
    · exact .inr heq.symm
    · left
      by_contra hneg
      push Not at hneg
      have := mul_lt_mul_of_neg_left hlt (mul_neg_of_neg_of_pos hneg hpos)
      exact hle.not_gt this
  · rintro (hnonneg | heq)
    · exact mul_le_mul_of_nonneg_left hmul (mul_nonneg hnonneg hpos.le)
    · rw [heq]

omit [LinearOrder T] in
/-- A better key never earns less. -/
lemma Raises.winner_le {linkScores' : Str → Option ℚ} (h : Raises linkScores linkScores' c.factId) :
    winner lib turn linkScores c ≤ winner lib turn linkScores' c := by
  rw [winner, winner]
  rcases hkey : linkScores c.factId.val with _ | k
  · rcases linkScores' c.factId.val with _ | k'
    · exact le_rfl
    · exact le_max_left _ _
  · obtain ⟨k', hk', hle⟩ := h.raised k hkey
    rw [hk']
    exact max_le_max_left _ hle

/-- A better key never lowers a rank. -/
lemma Raises.rank_le {linkScores' : Str → Option ℚ} (h : Raises linkScores linkScores' c.factId)
    (hc : c ∈ visible turn candidates) :
    rank lib turn linkScores' candidates c ≤ rank lib turn linkScores candidates c := by
  rw [rank_eq, rank_eq]
  refine List.countP_mono_left fun d hd hlt => ?_
  simp only [decide_eq_true_eq] at hlt ⊢
  by_cases hsame : d.factId = c.factId
  · -- there is one candidate of an id
    have heq : d = c := Table.eq_of_key_eq (List.mem_of_mem_filter hd)
      (List.mem_of_mem_filter hc) hsame
    rw [heq] at hlt
    exact absurd hlt (lt_irrefl _)
  · have hkey : linkScores' d.factId.val = linkScores d.factId.val :=
      h.others _ fun heq => hsame (FactId.val_injective heq)
    have hd' : (scored lib turn linkScores' d).score = (scored lib turn linkScores d).score := by
      rw [score_scored, score_scored, winner, winner, hkey]
    rw [← hd']
    refine lt_of_le_of_lt ?_ hlt
    rw [score_scored, score_scored]
    have hw : (0 : ℚ) ≤ if isClosed lib turn c then closedWindowDownrank else 1 := by
      rw [closedWindowDownrank]
      split_ifs <;> norm_num
    gcongr
    · exact multiplier_pos.le
    · exact h.winner_le

/-- **The signals push the right way exactly where what they weigh is not negative.**  For every
visible candidates, query, link keys, subjects and roster: of two candidates that earn the same,
the one with a closed window never ranks above, nor the one that covers more below, exactly where
that is not negative, or the cover makes no difference; and a better key never lowers a rank. -/
theorem signals_push_iff (lib : Libraries T) (turn : Turn T) (linkScores : Str → Option ℚ)
    (candidates : Table Candidate.factId) :
    Pushes lib turn linkScores candidates ↔ Upright lib turn linkScores candidates := by
  constructor
  · rintro ⟨hclosed, hwider, -⟩
    exact ⟨fun a b h => h.rank_le_iff.mp (hclosed a b h),
      fun a b h => h.rank_le_iff.mp (hwider a b h)⟩
  · rintro ⟨hclosed, hwider⟩
    exact ⟨fun a b h => h.rank_le_iff.mpr (hclosed a b h),
      fun a b h => h.rank_le_iff.mpr (hwider a b h), fun c hc _ h => h.rank_le hc⟩

end Score

/-! ## An expired fact above one that stands -/

/-- Vectors of one number, dates of one year, and words as they are written. -/
def oneDimension : Libraries ℕ where
  cosineSimilarity a b := a.headD 0 * b.headD 0
  chrono := {
    parseFromRfc3339 := fun s => if s = "2020-01-01T00:00:00Z".toList then some 2020 else none
    toRfc3339Secs := fun _ => "2020-01-01T00:00:00Z".toList
  }
  folding := { isAlphanumeric := Char.isAlphanum, foldName := fun s => s }
  casing := { toUppercase := fun c => [c], toLowercase := fun s => s }

/-- A fact about alice, far from the question. -/
def farFact (n : Char) (h : isFactId ("019abcde-0000-7000-8000-00000000000".toList ++ [n]) = true)
    (validTo : Option Str) : Candidate where
  row := {
    factId := ⟨_, h⟩
    wikiId := "alice".toList
    sourcePath := "alice/notes.md".toList
    text := "a fact".toList
    subjectId := .user "alice".toList
    factType := none
    validFrom := none
    validTo := validTo
    updatedAt := []
  }
  embedding := [-1]

/-- A fact that stands. -/
def standing : Candidate := farFact '1' isFactId_first none

/-- A fact that is over. -/
def expired : Candidate := farFact '2' isFactId_second (some "2020-01-01T00:00:00Z".toList)

/-- The two, the one that stands first. -/
def farFacts : Table Candidate.factId := ⟨[standing, expired], by decide +kernel⟩

/-- Alice asks in 2026. -/
def aliceAsks : Turn ℕ where
  queryEmbedding := [1]
  sender := { senderId := "alice".toList, senderGroups := [] }
  subjects := ["alice".toList]
  roster := []
  now := 2026

/-- The facts differ only in the window, and the expired one is above the one that stands. -/
theorem expired_ranks_above :
    ClosedTwin oneDimension aliceAsks (fun _ => none) farFacts standing expired ∧
      rank oneDimension aliceAsks (fun _ => none) farFacts expired = 0 ∧
      rank oneDimension aliceAsks (fun _ => none) farFacts standing = 1 ∧
      ¬ Pushes oneDimension aliceAsks (fun _ => none) farFacts := by
  have htwin : ClosedTwin oneDimension aliceAsks (fun _ => none) farFacts standing expired :=
    ⟨⟨List.mem_filter.mpr ⟨List.mem_cons_self, by decide +kernel⟩,
      List.mem_filter.mpr ⟨List.mem_cons_of_mem _ List.mem_cons_self, by decide +kernel⟩,
      rfl, rfl⟩, by decide +kernel, by decide +kernel, by decide +kernel⟩
  have hexpired : rank oneDimension aliceAsks (fun _ => none) farFacts expired = 0 := by
    decide +kernel
  have hstanding : rank oneDimension aliceAsks (fun _ => none) farFacts standing = 1 := by
    decide +kernel
  refine ⟨htwin, hexpired, hstanding, fun hpushes => ?_⟩
  have := hpushes.closed standing expired htwin
  omega

end Recall

end Mwe
