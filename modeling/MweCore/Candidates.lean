import MweCore.Capture.Buffer
import MweCore.Lib.Seats

/-!
# The pages a model is shown

When a memory has more pages than fit one list, a model is shown a selection.  The nearest pages
alone would hide those it is there to offer, so four sources fill the list: the nearest, those that
share a person with the asker, those that hold a fact of the same turn, and a sample of the far
half. Each page carries the name of the source that claimed it.

`pick_fills` says who is on the list, and `pick_tells_why` that its labels are true of the facts the
pool was loaded from.
-/

namespace Mwe

namespace Candidates

open Seats

/-! ## The pool -/

/-- How many candidates a selection carries. -/
def selectionPages : ℕ := 32

def quotaNear : ℕ := 12
def quotaPeople : ℕ := 8
def quotaTurn : ℕ := 6
def quotaFar : ℕ := 6

/-- Where a candidate came from. -/
inductive CandidateSource where
  | near | people | turn | far | home
  deriving DecidableEq, Repr

/-- The tag written on the candidate's line. -/
def CandidateSource.tag : CandidateSource → Str
  | .near => "near".toList
  | .people => "same-people".toList
  | .turn => "same-turn".toList
  | .far => "far".toList
  | .home => "same-wiki".toList

/-- What one page carries that a search can key on. -/
structure PageTraits (V : Type*) where
  embedding : Option V := none
  principals : Finset Principal := ∅
  turns : Finset Str := ∅

/-- The asking side. -/
structure Ask (V : Type*) where
  embeddings : List V := []
  principals : Finset Principal := ∅
  turns : Finset Str := ∅

/-- Whether nearness can be computed at all for this asker. -/
def Ask.hasVector {V : Type*} (ask : Ask V) : Bool := !ask.embeddings.isEmpty

/-- Widen the ask with more directions to be near. -/
def Ask.widenWith {V : Type*} (ask : Ask V) (vectors : List V) : Ask V :=
  { ask with embeddings := ask.embeddings ++ vectors }

/-- One chosen candidate. -/
abbrev Candidate := Str × CandidateSource

/-- Every page a stage may offer, in the order of the keys. -/
structure CandidatePool (V : Type*) where
  entries : List (Str × PageTraits V)
  sorted : (entries.map Prod.fst).Pairwise (· < ·)
  ubiquitous : Finset Principal := ∅
  embedded : ℕ := 0

/-- What a fact says about its page: its two principals, and its turn when it was buffered. -/
structure FactTrait where
  sourcePath : Str
  subjectId : Principal
  senderId : Option Principal
  originMessageHash : Option Str

/-- `SELECT … FROM fact_index f LEFT JOIN capture_buffer c ON c.capture_id = f.fact_id WHERE …`. -/
def factTraits (facts : FactTable) (queue : QueueTable) : List FactTrait :=
  (facts.rows.filter FactRow.isActive).map fun f => {
    sourcePath := f.sourcePath
    subjectId := f.subjectId
    senderId := f.senderId
    originMessageHash := (queue.get? f.factId).bind BufferedCapture.originMessageHash }

section Load

variable {V : Type*}

/-- Change what one page carries. -/
def modify (entries : List (Str × PageTraits V)) (key : Str) (set : PageTraits V → PageTraits V) :
    List (Str × PageTraits V) :=
  entries.map fun e => if e.1 = key then (e.1, set e.2) else e

/-- Put down what a fact says about its page. -/
def PageTraits.withFact (row : FactTrait) (t : PageTraits V) : PageTraits V where
  embedding := t.embedding
  principals := (insert row.subjectId t.principals) ∪ row.senderId.elim ∅ fun s => {s}
  turns := t.turns ∪ row.originMessageHash.elim ∅ fun h => {h}

/-- The pages, with nothing known of them. -/
def blank (V : Type*) (keyBySourcePath : List (Str × Str)) : List (Str × PageTraits V) :=
  ((keyBySourcePath.map Prod.snd).dedup.insertionSort (· ≤ ·)).map fun k => (k, {})

/-- Read one row of `page_card`; the count goes up with each vector. -/
def readCard (keyBySourcePath : List (Str × Str)) (read : List (Str × PageTraits V) × ℕ)
    (card : Str × Option V) : List (Str × PageTraits V) × ℕ :=
  match keyBySourcePath.lookup card.1, card.2 with
  | some key, some v => (modify read.1 key fun t => { t with embedding := some v }, read.2 + 1)
  | _, _ => read

/-- Read one row of the facts. -/
def readFact (keyBySourcePath : List (Str × Str)) (entries : List (Str × PageTraits V))
    (row : FactTrait) : List (Str × PageTraits V) :=
  match keyBySourcePath.lookup row.sourcePath with
  | some key => modify entries key (PageTraits.withFact row)
  | none => entries

/-- How many pages carry a principal. -/
def carriers (entries : List (Str × PageTraits V)) (p : Principal) : ℕ :=
  entries.countP fun e => p ∈ e.2.principals

/-- The principals that more than half of the pages carry. -/
def ubiquitous (entries : List (Str × PageTraits V)) : Finset Principal :=
  (entries.foldl (fun (all : Finset Principal) e => all ∪ e.2.principals) ∅).filter fun p =>
    entries.length < 2 * carriers entries p

lemma map_fst_modify (entries : List (Str × PageTraits V)) (key : Str)
    (set : PageTraits V → PageTraits V) :
    (modify entries key set).map Prod.fst = entries.map Prod.fst := by
  rw [modify, List.map_map]
  refine List.map_congr_left fun e _ => ?_
  rw [Function.comp_apply]
  split_ifs <;> rfl

lemma map_fst_foldl_readCard {keyBySourcePath : List (Str × Str)} (cards : List (Str × Option V))
    (read : List (Str × PageTraits V) × ℕ) :
    (cards.foldl (readCard keyBySourcePath) read).1.map Prod.fst = read.1.map Prod.fst := by
  induction cards generalizing read with
  | nil => rfl
  | cons card cards ih =>
    rw [List.foldl_cons, ih]
    unfold readCard
    split
    · dsimp only
      exact map_fst_modify read.1 _ _
    · rfl

lemma map_fst_foldl_readFact {keyBySourcePath : List (Str × Str)} (rows : List FactTrait)
    (entries : List (Str × PageTraits V)) :
    (rows.foldl (readFact keyBySourcePath) entries).map Prod.fst = entries.map Prod.fst := by
  induction rows generalizing entries with
  | nil => rfl
  | cons row rows ih =>
    rw [List.foldl_cons, ih]
    unfold readFact
    split
    · exact map_fst_modify entries _ _
    · rfl

lemma pairwise_blank (keyBySourcePath : List (Str × Str)) :
    ((blank V keyBySourcePath).map Prod.fst).Pairwise (· < ·) := by
  rw [blank, List.map_map]
  have hid : (Prod.fst ∘ fun k : Str => (k, ({} : PageTraits V))) = id := rfl
  rw [hid, List.map_id]
  have hsorted := List.pairwise_insertionSort (· ≤ ·) (keyBySourcePath.map Prod.snd).dedup
  have hnodup := (List.perm_insertionSort (· ≤ ·) _).nodup_iff.mpr
    (List.nodup_dedup (keyBySourcePath.map Prod.snd))
  exact (hsorted.and hnodup).imp fun h => lt_of_le_of_ne h.1 h.2

/-- The cards, or none of them when the read failed. -/
def readCards (cards : Option (List (Str × Option V))) (keyBySourcePath : List (Str × Str)) :
    List (Str × PageTraits V) × ℕ :=
  (cards.getD []).foldl (readCard keyBySourcePath) (blank V keyBySourcePath, 0)

lemma pairwise_readCards (cards : Option (List (Str × Option V)))
    (keyBySourcePath : List (Str × Str)) :
    ((readCards cards keyBySourcePath).1.map Prod.fst).Pairwise (· < ·) := by
  rw [readCards, map_fst_foldl_readCard]
  exact pairwise_blank keyBySourcePath

/-- Read every page: its card's vector, its people and its turns.  What cannot be read is left
out. -/
def load (cards : Option (List (Str × Option V))) (rows : Option (List FactTrait))
    (keyBySourcePath : List (Str × Str)) : CandidatePool V :=
  let read := readCards cards keyBySourcePath
  match rows with
  | none => {
      entries := read.1
      sorted := pairwise_readCards cards keyBySourcePath
      embedded := read.2 }
  | some rows => {
      entries := rows.foldl (readFact keyBySourcePath) read.1
      sorted := by
        rw [map_fst_foldl_readFact]
        exact pairwise_readCards cards keyBySourcePath
      ubiquitous := ubiquitous (rows.foldl (readFact keyBySourcePath) read.1)
      embedded := read.2 }

/-- The asking side of some pages: what they carry, put together. -/
def askFor (pool : CandidatePool V) (keys : List Str) : Ask V :=
  keys.foldl (fun ask k =>
    match pool.entries.lookup k with
    | none => ask
    | some t => {
        embeddings := ask.embeddings ++ t.embedding.toList
        principals := ask.principals ∪ t.principals
        turns := ask.turns ∪ t.turns }) {}

end Load

/-! ## The selection -/

/-- What the selection asks of the numbers it measures similarity in; their order is the total one
the ranking sorts by. -/
structure Similarity (V S : Type*) where
  cosine : V → V → S
  max : S → S → S
  negInfinity : S
  isFinite : S → Bool

section Pick

variable {V S : Type*} [LinearOrder S]

/-- Every page that can be scored, the most similar first. -/
def rankedByNearness (sim : Similarity V S) (pool : CandidatePool V) (ask : Ask V)
    (exclude : List Str) : List (S × Str) :=
  ((pool.entries.filter fun e => e.1 ∉ exclude).filterMap fun e =>
    e.2.embedding.bind fun v =>
      let best := (ask.embeddings.map fun m => sim.cosine m v).foldl sim.max sim.negInfinity
      if sim.isFinite best then some (best, e.1) else none).insertionSort fun a b => b.1 ≤ a.1

/-- The pages that share something with the asker, those that share the most first. -/
def sharing {β : Type*} [DecidableEq β] (pool : CandidatePool V) (mine ignore : Finset β)
    (exclude : List Str) (field : PageTraits V → Finset β) : List Str :=
  (((pool.entries.filter fun e => e.1 ∉ exclude).filterMap fun e =>
    let shared := ((field e.2).filter fun v => v ∈ mine ∧ v ∉ ignore).card
    if 0 < shared then some (shared, e.1) else none).insertionSort fun a b => b.1 ≤ a.1).map
      Prod.snd

/-- Every `k`-th of a list, from the first on. -/
def stepBy {β : Type*} (k : ℕ) (l : List β) : List β :=
  (l.zipIdx.filter fun x => x.2 % k = 0).map Prod.fst

/-- Some pages spread evenly across the far half of a ranking. -/
def farSample (ranked : List (S × Str)) (n : ℕ) : List Str :=
  if ranked.isEmpty ∨ n = 0 then []
  else
    let far := ranked.drop (ranked.length / 2)
    let stride := Nat.max (far.length / n) 1
    ((stepBy stride far.reverse).take n).map Prod.snd

/-- The passes of a selection. -/
def passes (sim : Similarity V S) (pool : CandidatePool V) (ask : Ask V) (exclude : List Str)
    (budget : ℕ) (home : List Str) : List (Pass Str CandidateSource) :=
  let ranked := rankedByNearness sim pool ask exclude
  [⟨.near, quotaNear, ranked.map Prod.snd⟩,
    ⟨.people, quotaPeople,
      sharing pool ask.principals pool.ubiquitous exclude PageTraits.principals⟩,
    ⟨.turn, quotaTurn, sharing pool ask.turns ∅ exclude PageTraits.turns⟩,
    ⟨.far, quotaFar, farSample ranked quotaFar⟩,
    ⟨.near, budget, ranked.map Prod.snd⟩,
    ⟨.far, budget, farSample ranked budget⟩] ++
  if ranked.isEmpty then [⟨.home, budget, home.filter fun k => k ∉ exclude⟩] else []

/-- Compose up to `budget` candidates from the sources. -/
def pick (sim : Similarity V S) (pool : CandidatePool V) (ask : Ask V) (exclude : List Str)
    (budget : ℕ) (home : List Str) : List Candidate :=
  run budget (passes sim pool ask exclude budget home) []

end Pick

/-! ## Who is on the list -/

section Lists

variable {α β κ : Type*}

/-- The keys of what is taken from a list, when what is taken keeps its key. -/
lemma sublist_filterMap {f : α → Option β} {g : β → κ} {h : α → κ} {l : List α}
    (hf : ∀ a b, f a = some b → g b = h a) : ((l.filterMap f).map g).Sublist (l.map h) := by
  induction l with
  | nil => exact .slnil
  | cons a l ih =>
    rw [List.map_cons]
    cases hfa : f a with
    | none =>
      rw [List.filterMap_cons_none hfa]
      exact ih.cons _
    | some b =>
      rw [List.filterMap_cons_some hfa, List.map_cons, hf a b hfa]
      exact ih.cons_cons _

/-- The sample is of the far half of the ranking. -/
lemma of_mem_farSample {ranked : List (α × Str)} {n : ℕ} {k : Str} (h : k ∈ farSample ranked n) :
    k ∈ (ranked.drop (ranked.length / 2)).map Prod.snd := by
  unfold farSample at h
  split_ifs at h
  · cases h
  · obtain ⟨x, hx, rfl⟩ := List.mem_map.mp h
    have hstep := List.mem_of_mem_take hx
    rw [stepBy, List.mem_map] at hstep
    obtain ⟨y, hy, rfl⟩ := hstep
    have hfar := List.fst_mem_of_mem_zipIdx (List.mem_of_mem_filter hy)
    exact List.mem_map_of_mem (List.mem_reverse.mp hfar)

lemma mem_ranked_of_far {ranked : List (α × Str)} {k : Str}
    (h : k ∈ (ranked.drop (ranked.length / 2)).map Prod.snd) : k ∈ ranked.map Prod.snd :=
  ((List.drop_sublist _ _).map _).subset h

end Lists

section Fills

variable {V S : Type*} [LinearOrder S] {sim : Similarity V S} {pool : CandidatePool V}
  {ask : Ask V} {exclude home : List Str} {budget : ℕ} {k : Str}

/-- A page that is scored is one of the pool's and not the asker's own. -/
lemma of_mem_ranked (h : k ∈ (rankedByNearness sim pool ask exclude).map Prod.snd) :
    k ∈ pool.entries.map Prod.fst ∧ k ∉ exclude := by
  obtain ⟨x, hx, rfl⟩ := List.mem_map.mp h
  rw [rankedByNearness, List.mem_insertionSort, List.mem_filterMap] at hx
  obtain ⟨e, he, hscored⟩ := hx
  rw [List.mem_filter, decide_eq_true_iff] at he
  obtain ⟨v, -, hv⟩ := Option.bind_eq_some_iff.mp hscored
  dsimp only at hv
  split_ifs at hv
  obtain rfl := Option.some.inj hv
  exact ⟨List.mem_map_of_mem he.1, he.2⟩

/-- No page is scored twice. -/
lemma nodup_ranked (sim : Similarity V S) (pool : CandidatePool V) (ask : Ask V)
    (exclude : List Str) :
    ((rankedByNearness sim pool ask exclude).map Prod.snd).Nodup := by
  have hkeys : (pool.entries.map Prod.fst).Nodup := pool.sorted.imp ne_of_lt
  have hfiltered := hkeys.sublist ((List.filter_sublist (p := fun e => e.1 ∉ exclude)).map Prod.fst)
  rw [rankedByNearness, ((List.perm_insertionSort _ _).map _).nodup_iff]
  refine List.Nodup.sublist (sublist_filterMap fun e x hscored => ?_) hfiltered
  obtain ⟨v, -, hv⟩ := Option.bind_eq_some_iff.mp hscored
  dsimp only at hv
  split_ifs at hv
  rw [← Option.some.inj hv]

lemma mem_sharing {β : Type*} [DecidableEq β] {mine ignore : Finset β}
    {field : PageTraits V → Finset β} : k ∈ sharing pool mine ignore exclude field ↔
      k ∉ exclude ∧ ∃ t, (k, t) ∈ pool.entries ∧ ∃ v ∈ field t, v ∈ mine ∧ v ∉ ignore := by
  simp only [sharing, List.mem_map, List.mem_insertionSort, List.mem_filterMap, List.mem_filter,
    decide_eq_true_iff, Option.ite_none_right_eq_some, Option.some.injEq, Finset.card_pos]
  constructor
  · rintro ⟨x, ⟨e, ⟨he, hout⟩, ⟨v, hv⟩, rfl⟩, rfl⟩
    exact ⟨hout, e.2, he, v, Finset.mem_filter.mp hv⟩
  · rintro ⟨hout, t, ht, v, hv, hmine⟩
    exact ⟨_, ⟨(k, t), ⟨ht, hout⟩, ⟨v, Finset.mem_filter.mpr ⟨hv, hmine⟩⟩, rfl⟩, rfl⟩

/-- Who is on the list: nobody twice, nobody of the asker's own and no more than there is room for,
the nearest first; the pages that only share something have their own seats and no others; and
while there is room nobody who could be scored is left out, nor the caller's own pages when nobody
could. -/
structure Fills (sim : Similarity V S) (pool : CandidatePool V) (ask : Ask V) (exclude : List Str)
    (budget : ℕ) (home : List Str) (picked : List Candidate) : Prop where
  nodup : (picked.map Prod.fst).Nodup
  length_le : picked.length ≤ budget
  foreign : ∀ c ∈ picked, c.1 ∉ exclude
  nearest : (((rankedByNearness sim pool ask exclude).map Prod.snd).take
    (min quotaNear budget)).map (fun k => (k, CandidateSource.near)) <+: picked
  people : picked.countP (fun c => c.2 = .people) ≤ quotaPeople
  turn : picked.countP (fun c => c.2 = .turn) ≤ quotaTurn
  scored : picked.length < budget →
    ∀ k ∈ (rankedByNearness sim pool ask exclude).map Prod.snd, k ∈ picked.map Prod.fst
  sharing : picked.length < budget →
    (∀ k ∈ sharing pool ask.principals pool.ubiquitous exclude PageTraits.principals,
      k ∈ picked.map Prod.fst) ∨ picked.countP (fun c => c.2 = .people) = quotaPeople
  sameTurn : picked.length < budget →
    (∀ k ∈ Candidates.sharing pool ask.turns ∅ exclude PageTraits.turns, k ∈ picked.map Prod.fst) ∨
      picked.countP (fun c => c.2 = .turn) = quotaTurn
  home : picked.length < budget → rankedByNearness sim pool ask exclude = [] →
    ∀ k ∈ home, k ∉ exclude → k ∈ picked.map Prod.fst

/-- The applicants of every pass are foreign. -/
lemma foreign_of_mem_passes {p : Pass Str CandidateSource}
    (hp : p ∈ passes sim pool ask exclude budget home) : ∀ k ∈ p.keys, k ∉ exclude := by
  rw [passes, List.mem_append] at hp
  rcases hp with hp | hp
  · simp only [List.mem_cons, List.not_mem_nil, or_false] at hp
    rcases hp with rfl | rfl | rfl | rfl | rfl | rfl
    · exact fun k hk => (of_mem_ranked hk).2
    · exact fun k hk => (mem_sharing.mp hk).1
    · exact fun k hk => (mem_sharing.mp hk).1
    · exact fun k hk => (of_mem_ranked (mem_ranked_of_far (of_mem_farSample hk))).2
    · exact fun k hk => (of_mem_ranked hk).2
    · exact fun k hk => (of_mem_ranked (mem_ranked_of_far (of_mem_farSample hk))).2
  · split_ifs at hp
    · obtain rfl := List.mem_singleton.mp hp
      intro k hk
      simpa using (List.mem_filter.mp hk).2
    · cases hp

/-- How many seats a label can have. -/
lemma countP_pick_le (s : CandidateSource) : (pick sim pool ask exclude budget home).countP
    (fun c => c.2 = s) ≤ (((passes sim pool ask exclude budget home).filter
      fun p => p.label = s).map Pass.quota).sum := by
  have hle := count_run_le budget (passes sim pool ask exclude budget home) [] s
  rwa [List.countP_nil, Nat.zero_add] at hle

/-- A pass that gave out its quota, when it is the only one of its label. -/
lemma countP_eq_of_given {picked : List Candidate} {s : CandidateSource} {quota : ℕ}
    {given : List Str} (hle : picked.countP (fun c => c.2 = s) ≤ quota)
    (hlen : given.length = quota) (hsub : (given.map fun k => (k, s)).Sublist picked) :
    picked.countP (fun c => c.2 = s) = quota := by
  refine le_antisymm hle ?_
  have hcount := hsub.countP_le (p := fun c => decide (c.2 = s))
  rw [List.countP_map, List.countP_eq_length.mpr fun k _ => by simp, hlen] at hcount
  exact hcount

end Fills

/-! ## Why it is on the list -/

/-- The two principals of a fact. -/
def Names (p : Principal) (f : FactRow) : Prop := f.subjectId = p ∨ f.senderId = some p

/-- The turn a fact was extracted from. -/
def ToldIn (queue : QueueTable) (turn : Str) (f : FactRow) : Prop :=
  (queue.get? f.factId).bind BufferedCapture.originMessageHash = some turn

/-- A page holds a fact that stands and of which something is true. -/
def Holds (facts : FactTable) (keyBySourcePath : List (Str × Str)) (key : Str)
    (states : FactRow → Prop) : Prop :=
  ∃ f ∈ facts, f.isActive = true ∧ keyBySourcePath.lookup f.sourcePath = some key ∧ states f

/-- What the label of a candidate tells the model of it, in terms of the facts. -/
def Why {V S : Type*} [LinearOrder S] (sim : Similarity V S) (facts : FactTable)
    (queue : QueueTable) (keyBySourcePath : List (Str × Str)) (pool : CandidatePool V)
    (ask : Ask V) (own exclude home : List Str) (c : Candidate) : Prop :=
  match c.2 with
  | .near => c.1 ∈ (rankedByNearness sim pool ask exclude).map Prod.snd
  | .people => ∃ p, Holds facts keyBySourcePath c.1 (Names p) ∧
      (∃ k ∈ own, Holds facts keyBySourcePath k (Names p)) ∧
      2 * carriers pool.entries p ≤ pool.entries.length
  | .turn => ∃ turn, Holds facts keyBySourcePath c.1 (ToldIn queue turn) ∧
      ∃ k ∈ own, Holds facts keyBySourcePath k (ToldIn queue turn)
  | .far => c.1 ∈ ((rankedByNearness sim pool ask exclude).drop
      ((rankedByNearness sim pool ask exclude).length / 2)).map Prod.snd
  | .home => rankedByNearness sim pool ask exclude = [] ∧ c.1 ∈ home

section Why

variable {V S : Type*} [LinearOrder S] {sim : Similarity V S} {facts : FactTable}
  {queue : QueueTable} {keyBySourcePath : List (Str × Str)} {entries : List (Str × PageTraits V)}
  {cards : Option (List (Str × Option V))} {own exclude home : List Str} {k key : Str}
  {t : PageTraits V} {p : Principal} {turn : Str}

/-- What the pages carry comes from the rows that were read. -/
def Sourced (rows : List FactTrait) (keyBySourcePath : List (Str × Str))
    (entries : List (Str × PageTraits V)) : Prop :=
  ∀ k t, (k, t) ∈ entries →
    (∀ p ∈ t.principals, ∃ row ∈ rows, keyBySourcePath.lookup row.sourcePath = some k ∧
      (row.subjectId = p ∨ row.senderId = some p)) ∧
    ∀ turn ∈ t.turns, ∃ row ∈ rows, keyBySourcePath.lookup row.sourcePath = some k ∧
      row.originMessageHash = some turn

lemma mem_modify {set : PageTraits V → PageTraits V} : (k, t) ∈ modify entries key set ↔
    ∃ t', (k, t') ∈ entries ∧ (if k = key then set t' else t') = t := by
  simp only [modify, List.mem_map, Prod.exists]
  constructor
  · rintro ⟨k', t', ht', heq⟩
    split_ifs at heq with hkey
    · obtain ⟨rfl, rfl⟩ := Prod.mk.inj heq
      exact ⟨t', ht', if_pos hkey⟩
    · obtain ⟨rfl, rfl⟩ := Prod.mk.inj heq
      exact ⟨t', ht', if_neg hkey⟩
  · rintro ⟨t', ht', rfl⟩
    refine ⟨k, t', ht', ?_⟩
    split_ifs <;> rfl

/-- A card says nothing of people and turns. -/
lemma sourced_readCards (cards : Option (List (Str × Option V)))
    (keyBySourcePath : List (Str × Str)) :
    Sourced [] keyBySourcePath (readCards cards keyBySourcePath).1 := by
  have hblank : Sourced [] keyBySourcePath (blank V keyBySourcePath) := by
    intro k t ht
    obtain ⟨k', -, heq⟩ := List.mem_map.mp ht
    obtain ⟨rfl, rfl⟩ := Prod.mk.inj heq
    exact ⟨fun p hp => absurd hp (Finset.notMem_empty p),
      fun turn hturn => absurd hturn (Finset.notMem_empty turn)⟩
  have hfold : ∀ (cards : List (Str × Option V)) (read : List (Str × PageTraits V) × ℕ),
      Sourced [] keyBySourcePath read.1 →
        Sourced [] keyBySourcePath (cards.foldl (readCard keyBySourcePath) read).1 := by
    intro cards
    induction cards with
    | nil => exact fun read h => h
    | cons card cards ih =>
      intro read h
      refine ih _ ?_
      unfold readCard
      split
      · dsimp only
        intro k t ht
        obtain ⟨t', ht', rfl⟩ := mem_modify.mp ht
        split_ifs <;> exact h k t' ht'
      · exact h
  exact hfold _ _ hblank

/-- Each row says what it says of its own page. -/
lemma sourced_readFact {rows : List FactTrait} (row : FactTrait)
    (h : Sourced rows keyBySourcePath entries) :
    Sourced (rows ++ [row]) keyBySourcePath (readFact keyBySourcePath entries row) := by
  have hmore : Sourced (rows ++ [row]) keyBySourcePath entries := by
    intro k t ht
    refine ⟨fun p hp => ?_, fun turn hturn => ?_⟩
    · obtain ⟨r, hr, hrest⟩ := (h k t ht).1 p hp
      exact ⟨r, List.mem_append_left _ hr, hrest⟩
    · obtain ⟨r, hr, hrest⟩ := (h k t ht).2 turn hturn
      exact ⟨r, List.mem_append_left _ hr, hrest⟩
  unfold readFact
  split
  · next key hkey =>
    intro k t ht
    obtain ⟨t', ht', rfl⟩ := mem_modify.mp ht
    split_ifs with heq
    · subst heq
      have hrow : row ∈ rows ++ [row] := by simp
      refine ⟨fun p hp => ?_, fun turn hturn => ?_⟩
      · simp only [PageTraits.withFact, Finset.mem_union, Finset.mem_insert] at hp
        rcases hp with (rfl | hp) | hp
        · exact ⟨row, hrow, hkey, .inl rfl⟩
        · exact (hmore k t' ht').1 p hp
        · cases hsender : row.senderId with
          | none => simp [hsender] at hp
          | some s =>
            obtain rfl : p = s := by simpa [hsender] using hp
            exact ⟨row, hrow, hkey, .inr hsender⟩
      · simp only [PageTraits.withFact, Finset.mem_union] at hturn
        rcases hturn with hturn | hturn
        · exact (hmore k t' ht').2 turn hturn
        · cases hhash : row.originMessageHash with
          | none => simp [hhash] at hturn
          | some s =>
            obtain rfl : turn = s := by simpa [hhash] using hturn
            exact ⟨row, hrow, hkey, hhash⟩
    · exact hmore k t' ht'
  · exact hmore

lemma sourced_foldl_readFact {rows : List FactTrait} (rest : List FactTrait)
    (h : Sourced rows keyBySourcePath entries) :
    Sourced (rows ++ rest) keyBySourcePath (rest.foldl (readFact keyBySourcePath) entries) := by
  induction rest generalizing rows entries with
  | nil => rwa [List.append_nil]
  | cons row rest ih =>
    have hrest := ih (sourced_readFact row h)
    rwa [List.append_assoc, List.singleton_append] at hrest

/-- What a loaded page carries, one of its facts says. -/
lemma holds_of_mem_load (ht : (k, t) ∈ (load cards (some (factTraits facts queue))
      keyBySourcePath).entries) :
    (∀ p ∈ t.principals, Holds facts keyBySourcePath k (Names p)) ∧
      ∀ turn ∈ t.turns, Holds facts keyBySourcePath k (ToldIn queue turn) := by
  have hsourced := sourced_foldl_readFact (factTraits facts queue)
    (sourced_readCards cards keyBySourcePath)
  rw [List.nil_append] at hsourced
  obtain ⟨hpeople, hturns⟩ := hsourced k t ht
  constructor
  · intro p hp
    obtain ⟨row, hrow, hkey, hnames⟩ := hpeople p hp
    obtain ⟨f, hf, rfl⟩ := List.mem_map.mp hrow
    obtain ⟨hf, hactive⟩ := List.mem_filter.mp hf
    exact ⟨f, hf, hactive, hkey, hnames⟩
  · intro turn hturn
    obtain ⟨row, hrow, hkey, htold⟩ := hturns turn hturn
    obtain ⟨f, hf, rfl⟩ := List.mem_map.mp hrow
    obtain ⟨hf, hactive⟩ := List.mem_filter.mp hf
    exact ⟨f, hf, hactive, hkey, htold⟩

/-- What the asker carries, one of its pages does. -/
lemma of_mem_askFor (pool : CandidatePool V) (keys : List Str) :
    (∀ p ∈ (askFor pool keys).principals, ∃ k ∈ keys, ∃ t, (k, t) ∈ pool.entries ∧
      p ∈ t.principals) ∧
    ∀ turn ∈ (askFor pool keys).turns, ∃ k ∈ keys, ∃ t, (k, t) ∈ pool.entries ∧
      turn ∈ t.turns := by
  induction keys using List.reverseRecOn with
  | nil => exact ⟨fun p hp => absurd hp (Finset.notMem_empty p),
      fun turn hturn => absurd hturn (Finset.notMem_empty turn)⟩
  | append_singleton keys k ih =>
    have hmore : ∀ {states : PageTraits V → Prop}, (∃ x ∈ keys, ∃ t, (x, t) ∈ pool.entries ∧
        states t) → ∃ x ∈ keys ++ [k], ∃ t, (x, t) ∈ pool.entries ∧ states t :=
      fun ⟨x, hx, h⟩ => ⟨x, List.mem_append_left _ hx, h⟩
    have hlast : k ∈ keys ++ [k] := by simp
    unfold askFor at ih ⊢
    rw [List.foldl_append, List.foldl_cons, List.foldl_nil]
    split
    · exact ⟨fun p hp => hmore (ih.1 p hp), fun turn hturn => hmore (ih.2 turn hturn)⟩
    · next t ht =>
      have hentry : (k, t) ∈ pool.entries := by
        obtain ⟨before, after, hsplit, -⟩ := List.lookup_eq_some_iff.mp ht
        rw [hsplit]
        exact List.mem_append_right _ List.mem_cons_self
      refine ⟨fun p hp => ?_, fun turn hturn => ?_⟩
      · rcases Finset.mem_union.mp hp with hp | hp
        · exact hmore (ih.1 p hp)
        · exact ⟨k, hlast, t, hentry, hp⟩
      · rcases Finset.mem_union.mp hturn with hturn | hturn
        · exact hmore (ih.2 turn hturn)
        · exact ⟨k, hlast, t, hentry, hturn⟩

/-- A principal that more than half of the pages carry is ubiquitous. -/
lemma two_mul_carriers_le (ht : (k, t) ∈ entries) (hp : p ∈ t.principals)
    (hnot : p ∉ ubiquitous entries) : 2 * carriers entries p ≤ entries.length := by
  have hfold : ∀ (l : List (Str × PageTraits V)) (all : Finset Principal),
      (p ∈ all ∨ ∃ e ∈ l, p ∈ e.2.principals) →
        p ∈ l.foldl (fun (all : Finset Principal) e => all ∪ e.2.principals) all := by
    intro l
    induction l with
    | nil =>
      rintro all (hall | ⟨e, he, -⟩)
      · exact hall
      · cases he
    | cons e l ih =>
      rintro all (hall | ⟨e', he', hp'⟩)
      · exact ih _ (.inl (Finset.mem_union_left _ hall))
      · rcases List.mem_cons.mp he' with rfl | he'
        · exact ih _ (.inl (Finset.mem_union_right _ hp'))
        · exact ih _ (.inr ⟨e', he', hp'⟩)
  by_contra hmost
  exact hnot (Finset.mem_filter.mpr ⟨hfold entries ∅ (.inr ⟨_, ht, hp⟩), by omega⟩)

/-- The label of every candidate is true of the facts the pool was loaded from, whatever directions
the ask was widened with. -/
theorem pick_tells_why (sim : Similarity V S) (facts : FactTable) (queue : QueueTable)
    (cards : Option (List (Str × Option V))) (keyBySourcePath : List (Str × Str))
    (own exclude home : List Str) (vectors : List V) (budget : ℕ) :
    let pool := load cards (some (factTraits facts queue)) keyBySourcePath
    let ask := (askFor pool own).widenWith vectors
    ∀ c ∈ pick sim pool ask exclude budget home,
      Why sim facts queue keyBySourcePath pool ask own exclude home c := by
  rintro pool ask ⟨key, label⟩ hc
  obtain ⟨hnames, htold⟩ := of_mem_askFor pool own
  have hpeople : ∀ k ∈ sharing pool ask.principals pool.ubiquitous exclude PageTraits.principals,
      Why sim facts queue keyBySourcePath pool ask own exclude home (k, .people) := by
    intro k hk
    obtain ⟨-, t, ht, p, hp, hmine, hnot⟩ := mem_sharing.mp hk
    obtain ⟨x, hx, t', ht', hp'⟩ := hnames p hmine
    exact ⟨p, (holds_of_mem_load ht).1 p hp, ⟨x, hx, (holds_of_mem_load ht').1 p hp'⟩,
      two_mul_carriers_le ht hp hnot⟩
  have hturn : ∀ k ∈ sharing pool ask.turns ∅ exclude PageTraits.turns,
      Why sim facts queue keyBySourcePath pool ask own exclude home (k, .turn) := by
    intro k hk
    obtain ⟨-, t, ht, turn, hturn, hmine, -⟩ := mem_sharing.mp hk
    obtain ⟨x, hx, t', ht', hturn'⟩ := htold turn hmine
    exact ⟨turn, (holds_of_mem_load ht).2 turn hturn, x, hx,
      (holds_of_mem_load ht').2 turn hturn'⟩
  rcases of_mem_run hc with h | ⟨p, hp, hlabel, hk⟩
  · cases h
  subst hlabel
  rw [passes, List.mem_append] at hp
  rcases hp with hp | hp
  · simp only [List.mem_cons, List.not_mem_nil, or_false] at hp
    rcases hp with rfl | rfl | rfl | rfl | rfl | rfl
    · exact hk
    · exact hpeople key hk
    · exact hturn key hk
    · exact of_mem_farSample hk
    · exact hk
    · exact of_mem_farSample hk
  · split_ifs at hp with hempty
    · obtain rfl := List.mem_singleton.mp hp
      exact ⟨List.isEmpty_iff.mp hempty, (List.mem_filter.mp hk).1⟩
    · cases hp

end Why

end Candidates

end Mwe
