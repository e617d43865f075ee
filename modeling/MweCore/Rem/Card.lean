import MweCore.Rem.Night

/-!
# The identity core and the night

Who somebody is changes when a person says so, and not because a pass read a page.  The revisor
looks at the fact it would retire, the contradiction sweep at the candidates it weighs, the judge at
the verdict and at what the verdict names; the completion sweep does not look.

`card_out_of_reach` says what is left of the rule.  As long as no completion is confirmed of a fact
of the identity core, such a fact stays the claim it was, and in its row nothing but its references
and its place may be written; where nothing is merged into it and no split moves it, the row stays
as it is.
-/

namespace Mwe

namespace Rem

open FactIndex

variable {T S : Type*} [LinearOrder T] [LinearOrder S]

/-! ## The rule -/

/-- Whether a fact is of the identity core in a table. -/
def OnTheCard (first : FactTable) (id : FactId) : Prop :=
  ∃ r, first.get? id = some r ∧ r.isIdentityCore = true

/-- The claim as it was, wherever it is filed and whatever it refers to. -/
def SameClaim (r r' : FactRow) : Prop :=
  r' = { r with
    sourcePath := r'.sourcePath
    regionStart := r'.regionStart
    regionEnd := r'.regionEnd
    authoredRefs := r'.authoredRefs
    updatedAt := r'.updatedAt }

/-- Every fact that is of the identity core in the one table has a row in the other that is so
related to its own. -/
def CardKept (R : FactRow → FactRow → Prop) (first facts : FactTable) : Prop :=
  ∀ id r, first.get? id = some r → r.isIdentityCore = true →
    ∃ r', facts.get? id = some r' ∧ R r r'

/-- An event of the four passes. -/
def Event.OfTheNight : Event T → Prop
  | .start _ (.access _) | .start _ (.apply _ _) => False
  | _ => True

/-- The model confirms the completion of no candidate of the identity core. -/
def CompletionsSpareTheCard (b : Night T) : Event T → Prop
  | .next i _ _ _ => ∀ s seed candidates clock item items applied,
      b.actors i = some (.sweep s) → s.kind = .completion →
      s.closing = some (seed, candidates, clock, item :: items, applied) →
        ∀ c ∈ candidates, c.factId.val = item.target → c.isIdentityCore = false
  | _ => True

/-- No references are carried onto a fact of the identity core, and no split moves one. -/
def LeavesTheCard (b : Night T) : Event T → Prop
  | .next i _ _ _ =>
      (∀ a m refs row, b.actors i = some a → a.merging = some m → m.stage = .carrying refs →
        b.facts.get? m.winner = some row → row.isIdentityCore = false) ∧
      ∀ j page clock split moving, b.actors i = some (.judge j none) →
        j.inHand = some (page, clock, [], some split) → factsThatMove page split = some moving →
          ∀ row ∈ moving, row.isIdentityCore = false
  | _ => True

lemma SameClaim.refl (r : FactRow) : SameClaim r r := rfl

lemma SameClaim.trans {r r' r'' : FactRow} (h : SameClaim r r') (h' : SameClaim r' r'') :
    SameClaim r r'' := by
  rw [SameClaim] at h h' ⊢
  rw [h', h]

lemma SameClaim.isIdentityCore {r r' : FactRow} (h : SameClaim r r') :
    r'.isIdentityCore = r.isIdentityCore := by
  rw [SameClaim] at h
  rw [h]
  rfl

lemma sameClaim_withRefs (refs : List Str) (now : Str) (r : FactRow) :
    SameClaim r (r.withRefs refs now) := rfl

lemma sameClaim_atRegion (path : Str) (region : Option ℤ × Option ℤ) (now : Str) (r : FactRow) :
    SameClaim r (r.atRegion path region now) := rfl

/-! ## What the passes hold -/

/-- A row shows that its fact is of the identity core, if it is. -/
def Shows (first : FactTable) (r : FactRow) : Prop :=
  OnTheCard first r.factId → r.isIdentityCore = true

/-- The candidates of a sweep's case; those of the contradiction sweep are not of the identity
core. -/
def CandidatesOk (first : FactTable) (kind : SweepKind) (candidates : List FactRow) : Prop :=
  ∀ r ∈ candidates, Shows first r ∧ (kind = .contradiction → r.isIdentityCore = false)

/-- What a sweep holds. -/
structure SweepOk (first : FactTable) (s : Sweep T) : Prop where
  byWiki : ∀ w ∈ s.byWiki, ∀ r ∈ w.2, Shows first r
  gathered : s.kind = .contradiction → ∀ c ∈ s.gathered, CandidatesOk first s.kind c.2
  cases : ∀ cases, s.cases = some cases → ∀ c ∈ cases, CandidatesOk first s.kind c.2
  closing : ∀ c, s.closing = some c → CandidatesOk first s.kind c.2.1

/-- What the judge holds shows the identity core. -/
def JudgeOk (first : FactTable) (j : Judgement T) : Prop :=
  (∀ page ∈ j.pages, ∀ r ∈ page.facts, Shows first r) ∧
    ∀ hand, j.inHand = some hand → ∀ r ∈ hand.1.facts, Shows first r

/-- What a merge is about to retire is not of the identity core. -/
def MergeOk (first : FactTable) (m : Option (Merging T)) : Prop :=
  ∀ x, m = some x → ¬ OnTheCard first x.loser

/-- What a pass holds. -/
def ActorOk (first : FactTable) : Actor T → Prop
  | .access _ _ | .apply _ => False
  | .revisor r m => (∀ p ∈ r.pairs, Shows first p.2) ∧ MergeOk first m
  | .judge j m => JudgeOk first j ∧ MergeOk first m
  | .sweep s => SweepOk first s

lemma not_onTheCard {first : FactTable} {r : FactRow} (h : Shows first r)
    (hcore : r.isIdentityCore = false) : ¬ OnTheCard first r.factId := by
  intro hcard
  rw [h hcard] at hcore
  cases hcore

/-- While the identity core is kept, every row of the table shows it. -/
lemma CardKept.shows {R : FactRow → FactRow → Prop} {first facts : FactTable}
    (hcore : ∀ {r r'}, R r r' → r'.isIdentityCore = r.isIdentityCore)
    (h : CardKept R first facts) {r : FactRow} (hr : r ∈ facts) : Shows first r := by
  rintro ⟨r₀, hr₀, hcard⟩
  obtain ⟨r', hr', hrel⟩ := h r.factId r₀ hr₀ hcard
  obtain rfl := Option.some.inj (hr'.symm.trans (Sql.Table.get?_eq_some_iff.mpr ⟨hr, rfl⟩))
  rw [hcore hrel, hcard]

/-! ### Where what they hold comes from -/

lemma mem_pairsOf {rows : List FactRow} {p : FactRow × FactRow} (h : p ∈ pairsOf rows) :
    p.2 ∈ rows := by
  induction rows with
  | nil => cases h
  | cons newer rows ih =>
    rcases List.mem_append.mp h with h | h
    · obtain ⟨older, holder, rfl⟩ := List.mem_map.mp h
      exact List.mem_cons_of_mem newer holder
    · exact List.mem_cons_of_mem newer (ih h)

lemma mem_of_findActiveInWiki {facts : FactTable} {wikiId : Str} {r : FactRow}
    (h : r ∈ findActiveInWiki facts wikiId) : r ∈ facts :=
  (List.mem_filter.mp h).1

section Steps

variable {chrono : Chrono T} {lib : Library T S} {policy : RemPolicy S}
  {staged : FactId → Option Str} {first facts : FactTable}

omit [LinearOrder T] in
lemma mem_of_nearest {seed r : FactRow} {rows : List FactRow} {n : ℕ}
    (h : r ∈ nearest lib seed rows n) : r ∈ rows :=
  (List.mem_insertionSort _).mp (List.mem_of_mem_take h)

/-- A candidate of a completion case is a row that was read. -/
lemma mem_of_completionCases {since : T} {byWiki : List (List FactRow)}
    {c : FactRow × List FactRow} (h : c ∈ completionCases chrono lib policy since byWiki)
    {r : FactRow} (hr : r ∈ c.2) : ∃ rows ∈ byWiki, r ∈ rows := by
  have hc := (List.mem_insertionSort _).mp (List.mem_of_mem_take h)
  obtain ⟨rows, hrows, hc⟩ := List.mem_flatMap.mp hc
  obtain ⟨evidence, -, hc⟩ := List.mem_filterMap.mp hc
  split_ifs at hc
  split at hc
  · cases hc
  split_ifs at hc
  dsimp only at hc
  split_ifs at hc
  obtain rfl := Option.some.inj hc
  exact ⟨rows, hrows, (List.mem_filter.mp (mem_of_nearest hr)).1⟩

/-- A satellite is a row that was read, and not of the identity core. -/
lemma mem_of_satellites {rows : List FactRow} {now : T} {seed r : FactRow}
    (h : r ∈ satellites chrono lib facts rows now seed) :
    r ∈ rows ∧ r.isIdentityCore = false := by
  obtain ⟨hr, hfences⟩ := List.mem_filter.mp (mem_of_nearest h)
  simp only [Bool.and_eq_true, Bool.not_eq_true'] at hfences
  exact ⟨hr, hfences.2⟩

lemma mem_of_gatherPage {depth : JudgementDepth} {path : Str} {order : List FactId}
    {pageInWiki : Option Str} {heavy : Bool} {r : FactRow}
    (h : r ∈ (gatherPage facts depth path order pageInWiki heavy).facts) : r ∈ facts := by
  obtain ⟨id, -, hfind⟩ := List.mem_filterMap.mp h
  exact (List.mem_filter.mp (List.mem_of_find?_eq_some hfind)).1

/-! ### What they hold stays so -/

variable {now : Str} {memoryNow : T} {answer : Answer}

omit [LinearOrder T] in
lemma pairs_of_next {r r' : Revision} {pair : Option (FactRow × FactRow)}
    (h : r.next lib policy facts answer = some (r', pair)) (hrows : ∀ x ∈ facts, Shows first x)
    (hr : ∀ p ∈ r.pairs, Shows first p.2) : ∀ p ∈ r'.pairs, Shows first p.2 := by
  unfold Revision.next at h
  split at h
  · cases h
  · next wiki scopes hpairs hscopes =>
    split at h
    · obtain ⟨rfl, -⟩ := Prod.mk.inj (Option.some.inj h)
      exact hr
    · obtain ⟨rfl, -⟩ := Prod.mk.inj (Option.some.inj h)
      intro p hp
      have hmem := (List.mem_insertionSort _).mp (mem_pairsOf hp)
      exact hrows p.2 (mem_of_findActiveInWiki hmem)
  · next newer older rest hpairs =>
    have hrest : ∀ p ∈ rest, Shows first p.2 := fun p hp =>
      hr p (by rw [hpairs]; exact List.mem_cons_of_mem _ hp)
    split at h
    · obtain ⟨rfl, -⟩ := Prod.mk.inj (Option.some.inj h)
      simp
    split at h
    · obtain ⟨rfl, -⟩ := Prod.mk.inj (Option.some.inj h)
      exact hrest
    have hasked : ∀ {x : Revision × Option (FactRow × FactRow)}
        {out : Option (FactRow × FactRow)},
        (if policy.revisorExaminedCap ≤ r.examined then
            some ({ r with scopes := [], pairs := [] }, none)
          else some ({ r with pairs := rest, examined := r.examined + 1 }, out)) = some x →
          ∀ p ∈ x.1.pairs, Shows first p.2 := by
      intro x out hx
      split_ifs at hx
      · rw [← Option.some.inj hx]
        simp
      · rw [← Option.some.inj hx]
        exact hrest
    split at h
    · obtain ⟨rfl, -⟩ := Prod.mk.inj (Option.some.inj h)
      exact hrest
    · exact hasked h
    · exact hasked h
    · exact hasked h
    · cases h

omit [LinearOrder S] in
lemma judgeOk_next {j j' : Judgement T} {asked asked' : List CardRetype} {facts' : FactTable}
    {pair : Option (FactRow × FactRow)}
    (h : j.next chrono lib facts asked now memoryNow answer = some (facts', asked', j', pair))
    (hrows : ∀ x ∈ facts, Shows first x) (hj : JudgeOk first j) : JudgeOk first j' := by
  obtain ⟨hpages, hhand⟩ := hj
  unfold Judgement.next at h
  split at h
  · next hnone =>
    split at h
    · simp only [Option.some.injEq, Prod.mk.injEq] at h
      obtain ⟨-, -, rfl, -⟩ := h
      exact ⟨hpages, hhand⟩
    · simp only [Option.some.injEq, Prod.mk.injEq] at h
      obtain ⟨-, -, rfl, -⟩ := h
      refine ⟨?_, hhand⟩
      intro page hpage r hr
      rcases List.mem_append.mp hpage with hpage | hpage
      · exact hpages page hpage r hr
      · rw [List.mem_singleton.mp hpage] at hr
        exact hrows r (mem_of_gatherPage hr)
    · next page pages _ hpath =>
      simp only [Option.some.injEq, Prod.mk.injEq] at h
      obtain ⟨-, -, rfl, -⟩ := h
      exact ⟨fun x hx => hpages x (by rw [hpath]; exact List.mem_cons_of_mem _ hx), hhand⟩
    · next page pages d _ hpath =>
      simp only [Option.some.injEq, Prod.mk.injEq] at h
      obtain ⟨-, -, rfl, -⟩ := h
      refine ⟨fun x hx => hpages x (by rw [hpath]; exact List.mem_cons_of_mem _ hx), ?_⟩
      intro hand hhand'
      rw [← Option.some.inj hhand']
      exact hpages page (by rw [hpath]; exact List.mem_cons_self)
    · cases h
  · next page clock marker verdict verdicts split hsome =>
    have hrest : ∀ decided, JudgeOk first
        { j with inHand := some (page, clock, verdicts, split), decided } := by
      intro decided
      refine ⟨hpages, ?_⟩
      intro hand hhand'
      rw [← Option.some.inj hhand']
      exact fun r hr => hhand _ hsome r hr
    dsimp only at h
    split at h
    · simp only [Option.some.injEq, Prod.mk.injEq] at h
      obtain ⟨-, -, rfl, -⟩ := h
      exact hrest _
    split at h
    · simp only [Option.some.injEq, Prod.mk.injEq] at h
      obtain ⟨-, -, rfl, -⟩ := h
      exact hrest _
    split at h
    · simp only [Option.some.injEq, Prod.mk.injEq] at h
      obtain ⟨-, -, rfl, -⟩ := h
      exact hrest _
    · simp only [Option.some.injEq, Prod.mk.injEq] at h
      obtain ⟨-, -, rfl, -⟩ := h
      exact hrest _
  · have hdone : JudgeOk first ({ j with inHand := none } : Judgement T) :=
      ⟨hpages, by simp⟩
    split at h
    · simp only [Option.some.injEq, Prod.mk.injEq] at h
      obtain ⟨-, -, rfl, -⟩ := h
      exact hdone
    · simp only [Option.some.injEq, Prod.mk.injEq] at h
      obtain ⟨-, -, rfl, -⟩ := h
      exact hdone
    · cases h

lemma sweepOk_read {s : Sweep T} {wiki : Str} {scopes : List Str}
    (hrows : ∀ x ∈ facts, Shows first x) (hs : SweepOk first s) :
    SweepOk first ({ s.read chrono lib facts wiki with scopes } : Sweep T) := by
  have hread : ∀ r ∈ findActiveInWiki facts wiki, Shows first r := fun r hr =>
    hrows r (mem_of_findActiveInWiki hr)
  unfold Sweep.read
  dsimp only
  split
  · next hkind =>
    refine ⟨?_, hs.gathered, hs.cases, hs.closing⟩
    intro w hw r hr
    rcases List.mem_append.mp hw with hw | hw
    · exact hs.byWiki w hw r hr
    · rw [List.mem_singleton.mp hw] at hr
      exact hread r hr
  · next hkind =>
    refine ⟨hs.byWiki, ?_, hs.cases, hs.closing⟩
    intro _ c hc
    rcases List.mem_append.mp hc with hc | hc
    · exact hs.gathered hkind c hc
    · obtain ⟨seed, -, hseed⟩ := List.mem_filterMap.mp hc
      split_ifs at hseed
      obtain rfl := Option.some.inj hseed
      intro r hr
      obtain ⟨hmem, hcore⟩ := mem_of_satellites hr
      exact ⟨hread r hmem, fun _ => hcore⟩

/-- The cases of a sweep hold what was read. -/
lemma candidatesOk_toCases {s : Sweep T} (hs : SweepOk first s) {c : FactRow × List FactRow}
    (hc : c ∈ s.toCases chrono lib policy) : CandidatesOk first s.kind c.2 := by
  unfold Sweep.toCases at hc
  split at hc
  · next hkind =>
    intro r hr
    obtain ⟨rows, hrows, hr⟩ := mem_of_completionCases hc hr
    obtain ⟨w, hw, rfl⟩ := List.mem_map.mp hrows
    refine ⟨hs.byWiki w ((List.mem_insertionSort _).mp hw) r hr, ?_⟩
    intro hcontra
    rw [hkind] at hcontra
    cases hcontra
  · next hkind =>
    have hmem := (List.mem_insertionSort _).mp (List.mem_of_mem_take hc)
    exact hs.gathered hkind c hmem

omit [LinearOrder T] in
lemma candidatesOk_opened {s : Sweep T} {candidates : List FactRow}
    (h : CandidatesOk first s.kind candidates) :
    CandidatesOk first s.kind (s.opened candidates) := by
  intro r hr
  unfold Sweep.opened at hr
  split at hr
  · exact h r (List.mem_filter.mp hr).1
  · exact h r hr

lemma sweepOk_next {s s' : Sweep T} {facts' : FactTable}
    (h : s.next chrono lib policy facts now memoryNow answer = some (facts', s'))
    (hrows : ∀ x ∈ facts, Shows first x) (hs : SweepOk first s) : SweepOk first s' := by
  unfold Sweep.next at h
  split at h
  · next seed candidates clock item items applied hclosing =>
    have hrest : ∀ applied, SweepOk first
        { s with closing := some (seed, candidates, clock, items, applied) } := by
      intro applied
      refine ⟨hs.byWiki, hs.gathered, hs.cases, ?_⟩
      intro c hc
      rw [← Option.some.inj hc]
      exact fun r hr => hs.closing _ hclosing r hr
    dsimp only at h
    split at h
    · obtain ⟨-, rfl⟩ := Prod.mk.inj (Option.some.inj h)
      exact hrest _
    split at h
    · obtain ⟨-, rfl⟩ := Prod.mk.inj (Option.some.inj h)
      exact hrest _
    split at h
    · obtain ⟨-, rfl⟩ := Prod.mk.inj (Option.some.inj h)
      exact hrest _
    · obtain ⟨-, rfl⟩ := Prod.mk.inj (Option.some.inj h)
      exact hrest _
  · obtain ⟨-, rfl⟩ := Prod.mk.inj (Option.some.inj h)
    exact ⟨hs.byWiki, hs.gathered, hs.cases, by simp⟩
  · split at h
    · obtain ⟨-, rfl⟩ := Prod.mk.inj (Option.some.inj h)
      refine ⟨hs.byWiki, hs.gathered, ?_, hs.closing⟩
      intro cases hcases c hc
      rw [← Option.some.inj hcases] at hc
      exact candidatesOk_toCases hs hc
    · obtain ⟨-, rfl⟩ := Prod.mk.inj (Option.some.inj h)
      exact sweepOk_read hrows hs
  · cases h
  · next seed candidates rest hnone hsome =>
    have hcandidates := hs.cases _ hsome _ List.mem_cons_self
    have hrest : ∀ closing : Option (FactRow × List FactRow × T × List CompletionItem ×
        List FactId), (∀ c, closing = some c → CandidatesOk first s.kind c.2.1) →
        SweepOk first ({ s with cases := some rest, closing } : Sweep T) := by
      intro closing hclosing
      refine ⟨hs.byWiki, hs.gathered, ?_, hclosing⟩
      intro cases hcases c hc
      rw [← Option.some.inj hcases] at hc
      exact hs.cases _ hsome c (List.mem_cons_of_mem _ hc)
    have hsame := hrest s.closing hs.closing
    dsimp only at h
    split at h
    · obtain ⟨-, rfl⟩ := Prod.mk.inj (Option.some.inj h)
      exact hsame
    split at h
    · obtain ⟨-, rfl⟩ := Prod.mk.inj (Option.some.inj h)
      refine hrest _ ?_
      intro c hc
      rw [← Option.some.inj hc]
      exact candidatesOk_opened hcandidates
    · obtain ⟨-, rfl⟩ := Prod.mk.inj (Option.some.inj h)
      exact hsame
    · obtain ⟨-, rfl⟩ := Prod.mk.inj (Option.some.inj h)
      exact hsame
    · cases h

omit [LinearOrder T] [LinearOrder S] in
lemma mergeOk_ofPair {pair : Option (FactRow × FactRow)}
    (h : ∀ p, pair = some p → ¬ OnTheCard first p.2.factId) :
    MergeOk first (pair.map (Merging.ofPair memoryNow)) := by
  intro x hx
  obtain ⟨p, hp, rfl⟩ := Option.map_eq_some_iff.mp hx
  exact h p hp

lemma mergeOk_within {m : Merging T} {m' : Option (Merging T)} {merged : Option Bool}
    {facts' : FactTable} (h : m.within chrono staged facts now = some (facts', m', merged))
    (hm : MergeOk first (some m)) : MergeOk first m' := by
  obtain ⟨-, rfl, -⟩ | ⟨stage, -, rfl, -⟩ := Merging.within_cases h
  · intro x hx
    cases hx
  · intro x hx
    rw [← Option.some.inj hx]
    exact hm m rfl

/-- What whoever is at work holds goes on showing the identity core. -/
lemma actorOk_next {a a' : Actor T} {asked asked' : List CardRetype} {facts' : FactTable}
    (h : a.next chrono lib policy staged facts asked now memoryNow answer =
      some (facts', asked', a')) (hrows : ∀ x ∈ facts, Shows first x) (ha : ActorOk first a) :
    ActorOk first a' := by
  unfold Actor.next at h
  split at h
  · exact ha.elim
  · exact ha.elim
  · next r m =>
    obtain ⟨out, hnext, hout⟩ := Option.map_eq_some_iff.mp h
    simp only [Prod.mk.injEq] at hout
    obtain ⟨-, -, rfl⟩ := hout
    refine ⟨?_, mergeOk_within hnext ha.2⟩
    cases out.2.2 with
    | none => exact ha.1
    | some merged =>
      unfold Revision.noted
      simp only [Option.elim_some]
      split_ifs
      · exact ha.1
      · exact ha.1
  · next r =>
    obtain ⟨⟨r', pair⟩, hnext, hout⟩ := Option.map_eq_some_iff.mp h
    simp only [Prod.mk.injEq] at hout
    obtain ⟨-, -, rfl⟩ := hout
    refine ⟨pairs_of_next hnext hrows ha.1, mergeOk_ofPair ?_⟩
    rintro p rfl
    obtain ⟨hmem, hnominated⟩ := Revision.next_pair hnext
    simp only [nominated, Bool.and_eq_true, Bool.not_eq_true'] at hnominated
    exact not_onTheCard (ha.1 p hmem) hnominated.1.1.2
  · next j m =>
    obtain ⟨out, hnext, hout⟩ := Option.map_eq_some_iff.mp h
    simp only [Prod.mk.injEq] at hout
    obtain ⟨-, -, rfl⟩ := hout
    refine ⟨?_, mergeOk_within hnext ha.2⟩
    cases out.2.2 with
    | none => exact ha.1
    | some merged =>
      unfold Judgement.noted
      simp only [Option.elim_some]
      split_ifs
      · exact ha.1
      · exact ha.1
  · next j =>
    obtain ⟨⟨facts'', asked'', j', pair⟩, hnext, hout⟩ := Option.map_eq_some_iff.mp h
    simp only [Prod.mk.injEq] at hout
    obtain ⟨-, -, rfl⟩ := hout
    refine ⟨judgeOk_next hnext hrows ha.1, mergeOk_ofPair ?_⟩
    rintro p rfl
    obtain ⟨page, clock, marker, verdict, verdicts, split, row, hhand, hrow, hmerge⟩ :=
      Judgement.next_pair hnext
    obtain ⟨hloser, hcore⟩ := reaches_weigh hrow (by rw [hmerge]; rfl)
    exact not_onTheCard (ha.1.2 _ hhand _ hloser) hcore
  · next s =>
    obtain ⟨out, hnext, hout⟩ := Option.map_eq_some_iff.mp h
    simp only [Prod.mk.injEq] at hout
    obtain ⟨-, -, rfl⟩ := hout
    exact sweepOk_next hnext hrows ha

/-! ## What a step does to a row -/

/-- What a list is mapped to, by a function that may fail, comes from it. -/
lemma exists_of_mem_mapM {α β : Type*} {f : α → Option β} {xs : List α} {ys : List β}
    (h : xs.mapM f = some ys) {y : β} (hy : y ∈ ys) : ∃ x ∈ xs, f x = some y := by
  induction xs generalizing ys with
  | nil =>
    rw [List.mapM_nil] at h
    obtain rfl := Option.some.inj h
    cases hy
  | cons x xs ih =>
    rw [List.mapM_cons] at h
    obtain ⟨first, hfirst, h⟩ := Option.bind_eq_some_iff.mp h
    obtain ⟨rest, hrest, h⟩ := Option.bind_eq_some_iff.mp h
    obtain rfl := Option.some.inj h
    rcases List.mem_cons.mp hy with rfl | hy
    · exact ⟨x, List.mem_cons_self, hfirst⟩
    · obtain ⟨x', hx', hf⟩ := ih hrest hy
      exact ⟨x', List.mem_cons_of_mem x hx', hf⟩

/-- A fact a split moves is on the page. -/
lemma mem_of_factsThatMove {page : JudgedPage} {split : LlmPageSplit} {moving : List FactRow}
    (h : factsThatMove page split = some moving) {r : FactRow} (hr : r ∈ moving) :
    r ∈ page.facts := by
  obtain ⟨rows, hrows, hmoving⟩ := Option.bind_eq_some_iff.mp h
  have hnamed : ∀ x ∈ rows, x ∈ page.facts := by
    intro x hx
    obtain ⟨raw, -, hraw⟩ := exists_of_mem_mapM hrows hx
    exact JudgedPage.mem_of_named (Option.join_eq_some_iff.mp hraw)
  have honce : ∀ (rows kept : List FactRow), (∀ x ∈ rows, x ∈ page.facts) →
      (∀ x ∈ kept, x ∈ page.facts) → ∀ x ∈ rows.foldl (fun moving row =>
        if moving.any fun f => f.factId == row.factId then moving else moving ++ [row]) kept,
          x ∈ page.facts := by
    intro rows
    induction rows with
    | nil => exact fun kept _ hkept => hkept
    | cons row rows ih =>
      intro kept hrows hkept
      refine ih _ (fun x hx => hrows x (List.mem_cons_of_mem row hx)) ?_
      intro x hx
      dsimp only at hx
      split_ifs at hx
      · exact hkept x hx
      · rcases List.mem_append.mp hx with hx | hx
        · exact hkept x hx
        · rw [List.mem_singleton.mp hx]
          exact hrows row List.mem_cons_self
  dsimp only at hmoving
  split_ifs at hmoving
  rw [← Option.some.inj hmoving] at hr
  exact honce rows [] hnamed (by simp) r hr

/-- An update leaves a row it does not pick. -/
lemma get?_update_of_not {sel : FactRow → Bool} {set : FactRow → FactRow}
    {hset : ∀ r, (set r).factId = r.factId} {id : FactId} {r : FactRow}
    (hr : facts.get? id = some r) (hsel : sel r = false) :
    (facts.update sel set hset).get? id = some r := by
  rw [Sql.Table.get?_update, hr, Option.map_some, hsel, if_neg (by simp)]

/-- An update that keeps the claim of every row keeps each claim. -/
lemma get?_update_sameClaim {sel : FactRow → Bool} {set : FactRow → FactRow}
    {hset : ∀ r, (set r).factId = r.factId} (hsame : ∀ r, SameClaim r (set r)) {id : FactId}
    {r : FactRow} (hr : facts.get? id = some r) :
    ∃ r', (facts.update sel set hset).get? id = some r' ∧ SameClaim r r' ∧
      (sel r = false → r' = r) := by
  rw [Sql.Table.get?_update, hr, Option.map_some]
  refine ⟨_, rfl, ?_, ?_⟩
  · split_ifs
    · exact hsame r
    · exact .refl r
  · intro hsel
    rw [hsel, if_neg (by simp)]

omit [LinearOrder S] in
/-- A step keeps the claim of a fact of the identity core, and its row where it leaves the card. -/
lemma Change.row {b : Night T} {i : ℕ} {a : Actor T} {facts' : FactTable}
    {asked : List CardRetype}
    (h : Change chrono lib b.facts asked now answer a facts') (ha : b.actors i = some a)
    (hok : ActorOk first a)
    (hspare : CompletionsSpareTheCard b (.next i now memoryNow answer)) {id : FactId} {r : FactRow}
    (hcard : OnTheCard first id) (hr : b.facts.get? id = some r) (hcore : r.isIdentityCore = true) :
    ∃ r', facts'.get? id = some r' ∧ SameClaim r r' ∧
      (LeavesTheCard b (.next i now memoryNow answer) → r' = r) := by
  obtain ⟨-, hid⟩ := Sql.Table.get?_eq_some_iff.mp hr
  -- a row of another fact is rewritten
  have hother : ∀ {sel : FactRow → Bool} {set : FactRow → FactRow}
      {hset : ∀ r, (set r).factId = r.factId}, sel r = false →
      ∃ r', (b.facts.update sel set hset).get? id = some r' ∧ SameClaim r r' ∧
        (LeavesTheCard b (.next i now memoryNow answer) → r' = r) := fun hsel =>
    ⟨r, get?_update_of_not hr hsel, .refl r, fun _ => rfl⟩
  have hnot : ∀ {x : FactId} {p : FactRow → Bool}, ¬ OnTheCard first x →
      (r.factId == x && p r) = false := by
    intro x p hx
    have hne : (r.factId == x) = false := by
      rw [beq_eq_false_iff_ne, hid]
      rintro rfl
      exact hx hcard
    rw [hne, Bool.false_and]
  cases h with
  | nothing => exact ⟨r, hr, .refl r, fun _ => rfl⟩
  | access heq =>
    rw [heq] at hok
    exact hok.elim
  | @retired m w l closedAt hm hstage =>
    have hloser : ¬ OnTheCard first m.loser := by
      cases a with
      | access c phase => cases hm
      | apply m => exact hok.elim
      | sweep s => cases hm
      | revisor x y => exact hok.2 m hm
      | judge x y => exact hok.2 m hm
    refine hother ?_
    rw [Bool.and_assoc]
    exact hnot (p := fun r => r.supersededAt.isNone && r.deletedAt.isNone) hloser
  | @carried m refs hm hstage =>
    obtain ⟨r', hr', hsame, hout⟩ : ∃ r',
        (setAuthoredRefs b.facts m.winner refs now).get? id = some r' ∧ SameClaim r r' ∧
          ((r.factId == m.winner && r.isActive) = false → r' = r) :=
      get?_update_sameClaim (sameClaim_withRefs refs now) hr
    refine ⟨r', hr', hsame, fun hleave => hout ?_⟩
    by_cases hwinner : r.factId = m.winner
    · have := hleave.1 a m refs r ha hm hstage (by rw [← hwinner, hid]; exact hr)
      rw [hcore] at this
      cases this
    · simp [hwinner]
  | @judged j page clock marker verdict verdicts split row heq hhand hrow =>
    obtain hsame | ⟨x, set, hset, hreach, -, hwritten⟩ :=
      carryOut_fst chrono b.facts asked now (weigh chrono lib j.depth clock page row verdict)
    · rw [hsame]
      exact ⟨r, hr, .refl r, fun _ => rfl⟩
    · rw [hwritten]
      rw [heq] at hok
      obtain ⟨hmem, hxcore⟩ := reaches_weigh (JudgedPage.mem_of_factAt hrow) hreach
      have hx := not_onTheCard (hok.1.2 _ hhand x hmem) hxcore
      exact hother (hnot (p := fun r => r.deletedAt.isNone) hx)
  | @split j page clock split dir moved region heq hhand hanswer =>
    rw [heq] at hok ha
    refine @applyPageSplit_induct b.facts now (fun facts' => ∃ r', facts'.get? id = some r' ∧
      SameClaim r r' ∧ (LeavesTheCard b (.next i now memoryNow answer) → r' = r)) page split dir
      moved region ⟨r, hr, .refl r, fun _ => rfl⟩ ?_
    rintro facts' id' path ⟨moving, hmoving, x, hx, rfl⟩ ⟨r', hr', hsame, hleft⟩
    obtain ⟨r'', hr'', hsame', hout⟩ : ∃ r'',
        (moveRegion facts' x.factId path (region x.factId) now).get? id = some r'' ∧
          SameClaim r' r'' ∧ ((r'.factId == x.factId && r'.isActive) = false → r'' = r') :=
      get?_update_sameClaim (sameClaim_atRegion path (region x.factId) now) hr'
    refine ⟨r'', hr'', hsame.trans hsame', fun hleave => ?_⟩
    have hxcard : ¬ OnTheCard first x.factId :=
      not_onTheCard (hok.1.2 _ hhand x (mem_of_factsThatMove hmoving hx))
        (hleave.2 j page clock split moving ha hhand hmoving x hx)
    have hne : (r'.factId == x.factId) = false := by
      obtain ⟨-, hid'⟩ := Sql.Table.get?_eq_some_iff.mp hr'
      rw [beq_eq_false_iff_ne, hid']
      rintro rfl
      exact hxcard hcard
    rw [hout (by rw [hne, Bool.false_and]), hleft hleave]
  | @closed s seed target candidates clock item items applied heq hclosing htarget hitem =>
    rw [heq] at hok ha
    obtain ⟨hshows, hcontra⟩ := hok.closing _ hclosing target htarget
    have htargetCore : target.isIdentityCore = false := by
      cases hkind : s.kind with
      | completion =>
        exact hspare s seed candidates clock item items applied ha hkind hclosing target htarget
          hitem
      | contradiction => exact hcontra hkind
    obtain hsame | ⟨stop, hwritten⟩ := closeValidity_snd chrono b.facts target.factId
      (s.closure chrono lib clock seed item).1 (s.closure chrono lib clock seed item).2.1
      (s.closure chrono lib clock seed item).2.2.1 (s.closure chrono lib clock seed item).2.2.2 now
    · rw [hsame]
      exact ⟨r, hr, .refl r, fun _ => rfl⟩
    · rw [hwritten]
      exact hother (hnot (p := fun r => r.deletedAt.isNone) (not_onTheCard hshows htargetCore))

/-! ## Runs -/

/-- What holds along a run: the identity core is kept, and whoever is at work knows it. -/
structure Inv (R : FactRow → FactRow → Prop) (first : FactTable) (b : Night T) : Prop where
  kept : CardKept R first b.facts
  actors : ∀ i a, b.actors i = some a → ActorOk first a

omit [LinearOrder T] in
lemma actorOk_start {s : Start T} {a : Actor T} (h : s.actor = some a) {i : ℕ}
    (hnight : (Event.start i s).OfTheNight) : ActorOk first a := by
  cases s with
  | access c => exact hnight.elim
  | apply context memoryNow => exact hnight.elim
  | revisor scopes =>
    obtain rfl := Option.some.inj h
    exact ⟨by simp, by simp [MergeOk]⟩
  | judge depth paths =>
    obtain rfl := Option.some.inj h
    exact ⟨⟨by simp, by simp⟩, by simp [MergeOk]⟩
  | sweep kind scopes willRead since now =>
    obtain rfl := Option.some.inj h
    exact ⟨by simp, by simp, by simp, by simp⟩

/-- A step of the night keeps the identity core, as far as the relation goes. -/
lemma Inv.step {R : FactRow → FactRow → Prop} {b b' : Night T} {e : Event T}
    (hcore : ∀ {r r'}, R r r' → r'.isIdentityCore = r.isIdentityCore)
    (hR : ∀ {r r' r''}, R r r' → SameClaim r' r'' → (LeavesTheCard b e → r'' = r') → R r r'')
    (h : Rem.step chrono lib policy staged b e = some b') (hb : Inv R first b)
    (hnight : e.OfTheNight) (hspare : CompletionsSpareTheCard b e) : Inv R first b' := by
  obtain ⟨i, s, a, rfl, hs, rfl⟩ | ⟨i, now, memoryNow, answer, a, facts', asked', a', rfl, ha,
    hnext, rfl⟩ | ⟨i, rfl, rfl⟩ := step_cases h
  · refine ⟨hb.kept, ?_⟩
    intro j x hx
    simp only [Function.update_apply] at hx
    split_ifs at hx
    · rw [← Option.some.inj hx]
      exact actorOk_start hs hnight
    · exact hb.actors j x hx
  · have hrows : ∀ x ∈ b.facts, Shows first x := fun x hx => hb.kept.shows hcore hx
    have hok := hb.actors i a ha
    refine ⟨?_, ?_⟩
    · intro id r hr hcard
      obtain ⟨r', hr', hrel⟩ := hb.kept id r hr hcard
      obtain ⟨r'', hr'', hsame, hleft⟩ := (Actor.next_change hnext).row ha hok hspare
        ⟨r, hr, hcard⟩ hr' (by rw [hcore hrel, hcard])
      exact ⟨r'', hr'', hR hrel hsame hleft⟩
    · intro j x hx
      simp only [Function.update_apply] at hx
      split_ifs at hx
      · rw [← Option.some.inj hx]
        exact actorOk_next hnext hrows hok
      · exact hb.actors j x hx
  · refine ⟨hb.kept, ?_⟩
    intro j x hx
    simp only [Function.update_apply] at hx
    split_ifs at hx
    exact hb.actors j x hx

/-- Along a run of the four passes in which no completion is confirmed of a fact of the identity
core, every such fact stays the claim it was in every state; and where nothing is carried onto one
and no split moves one, its row stays as it was. -/
theorem card_out_of_reach {b b' : Night T} {trace : List (Night T × Event T)}
    (hrun : Run (step chrono lib policy staged) b trace b') (hstart : ∀ i, b.actors i = none)
    (hnight : ∀ p ∈ trace, p.2.OfTheNight)
    (hspare : ∀ p ∈ trace, CompletionsSpareTheCard p.1 p.2) :
    Run.Always (fun x => CardKept SameClaim b.facts x.facts) trace b' ∧
      ((∀ p ∈ trace, LeavesTheCard p.1 p.2) →
        Run.Always (fun x => CardKept Eq b.facts x.facts) trace b') := by
  have hidle : ∀ i a, b.actors i = some a → ActorOk b.facts a := by
    intro i a ha
    rw [hstart] at ha
    cases ha
  constructor
  · have hinv : Run.Always (Inv SameClaim b.facts) trace b' := by
      refine hrun.invariant (C := fun x e => e.OfTheNight ∧ CompletionsSpareTheCard x e)
        ⟨fun id r hr _ => ⟨r, hr, .refl r⟩, hidle⟩ ?_ fun p hp => ⟨hnight p hp, hspare p hp⟩
      intro x y e hxy hx hC
      exact hx.step SameClaim.isIdentityCore (fun hrel hsame _ => hrel.trans hsame) hxy hC.1 hC.2
    exact ⟨fun p hp => (hinv.1 p hp).kept, hinv.2.kept⟩
  · intro hleave
    have hinv : Run.Always (Inv Eq b.facts) trace b' := by
      refine hrun.invariant
        (C := fun x e => (e.OfTheNight ∧ CompletionsSpareTheCard x e) ∧ LeavesTheCard x e)
        ⟨fun id r hr _ => ⟨r, hr, rfl⟩, hidle⟩ ?_
        fun p hp => ⟨⟨hnight p hp, hspare p hp⟩, hleave p hp⟩
      intro x y e hxy hx hC
      exact hx.step (fun hrel => by rw [hrel]) (fun hrel _ hleft => by rw [hrel, hleft hC.2]) hxy
        hC.1.1 hC.1.2
    exact ⟨fun p hp => (hinv.1 p hp).kept, hinv.2.kept⟩

end Steps

/-! ## A card and a piece of evidence -/

/-- What Alice is called, always on. -/
def cardFact : NewFact :=
  { olderFact with
    factType := some "bio".toList
    salience := some "high".toList }

/-- Something Alice meant to do. -/
def openItem : NewFact :=
  { olderFact with factId := ⟨"018f1234-5678-7abc-9def-0123456789ad".toList, by decide⟩ }

/-- The completion sweep reads the wiki, and is told that the newest fact completes another. -/
def completes (target : FactId) : List (Event ℤ) :=
  [.start 0 (.sweep .completion ["alice".toList] [] 0 0)] ++ goesOn 0 2 ++
    [.next 0 [] 0 (.items [{ target := target.val }])] ++ goesOn 0 1

/-- The judge reads the page, and is told that the card holds a passing spell. -/
def retypes : List (Event ℤ) :=
  [.start 1 (.judge .nightly [cardFact.sourcePath]),
    .next 1 [] 0 (.reading [cardFact.factId, openItem.factId] none false),
    .next 1 [] 0 (.decision { verdicts := [("f1".toList,
      { verdict := "retype".toList, factType := some "state".toList })] })] ++ goesOn 1 1

/-- Whether an event is one of the passes'. -/
def ofTheNight : Event ℤ → Bool
  | .start _ (.access _) | .start _ (.apply _ _) => false
  | _ => true

/-- Whether a closure that is confirmed spares the identity core. -/
def spares (b : Night ℤ) : Event ℤ → Bool
  | .next i _ _ _ =>
    match b.actors i with
    | some (.sweep s) =>
      match s.closing with
      | some (_, candidates, _, item :: _, _) =>
        candidates.all fun c => c.factId.val != item.target || !c.isIdentityCore
      | _ => true
    | _ => true
  | _ => true

lemma ofTheNight_of_eq_true {e : Event ℤ} (h : ofTheNight e = true) : e.OfTheNight := by
  cases e with
  | start i s => cases s <;> trivial
  | next i now memoryNow answer => trivial
  | stop i => trivial

lemma spares_of_eq_true {b : Night ℤ} {e : Event ℤ} (h : spares b e = true) :
    CompletionsSpareTheCard b e := by
  cases e with
  | start i s => trivial
  | stop i => trivial
  | next i now memoryNow answer =>
    intro s seed candidates clock item items applied ha _ hclosing c hc htarget
    simp only [spares, ha, hclosing, List.all_eq_true] at h
    simpa [htarget] using h c hc

theorem card_out_of_reach_retypes :
    ∃ trace t, Run (step sampleChrono sampleLibrary samplePolicy nothingStaged)
        (quietNight [cardFact, openItem, newerFact]) trace t ∧
      CardKept SameClaim (quietNight [cardFact, openItem, newerFact]).facts t.facts ∧
      t.asked.map CardRetype.factId = [cardFact.factId] ∧
      (t.facts.get? openItem.factId).any fun r => r.validTo.isSome := by
  have hasked : ((completes openItem.factId ++ retypes).foldlM (fun b e =>
      if ofTheNight e && spares b e then
        step sampleChrono sampleLibrary samplePolicy nothingStaged b e else none)
      (quietNight [cardFact, openItem, newerFact])).any (fun t =>
        t.asked.map CardRetype.factId = [cardFact.factId] ∧
          (t.facts.get? openItem.factId).any fun r => r.validTo.isSome) = true := by
    decide +kernel
  obtain ⟨trace, t, hrun, hchecked, htest⟩ := Run.exists_of_any_checked hasked
  simp only [Bool.and_eq_true] at hchecked
  obtain ⟨⟨-, hkept⟩, -⟩ := card_out_of_reach hrun (fun _ => rfl)
    (fun p hp => ofTheNight_of_eq_true (hchecked p hp).1)
    (fun p hp => spares_of_eq_true (hchecked p hp).2)
  exact ⟨trace, t, hrun, hkept, of_decide_eq_true htest⟩

/-- The completion sweep closes a fact of the identity core. -/
theorem card_closed :
    ∃ trace t, Run (step sampleChrono sampleLibrary samplePolicy nothingStaged)
        (quietNight [cardFact, newerFact]) trace t ∧ (∀ p ∈ trace, p.2.OfTheNight) ∧
      ∃ r r', (quietNight [cardFact, newerFact]).facts.get? cardFact.factId = some r ∧
        r.isIdentityCore = true ∧ r.validTo = none ∧
        t.facts.get? cardFact.factId = some r' ∧ r'.validTo.isSome ∧
        r'.decayReason = some "completed".toList := by
  have hclosed : ((completes cardFact.factId).foldlM (fun b e => if ofTheNight e then
      step sampleChrono sampleLibrary samplePolicy nothingStaged b e else none)
      (quietNight [cardFact, newerFact])).any (fun t =>
        (t.facts.get? cardFact.factId).any fun r' =>
          r'.validTo.isSome ∧ r'.decayReason = some "completed".toList) = true := by
    decide +kernel
  obtain ⟨trace, t, hrun, hchecked, htest⟩ := Run.exists_of_any_checked hclosed
  obtain ⟨r', hr', htest⟩ := (Option.any_eq_true _ _).mp htest
  obtain ⟨hend, hreason⟩ := of_decide_eq_true htest
  refine ⟨trace, t, hrun, fun p hp => ofTheNight_of_eq_true (hchecked p hp), ?_⟩
  exact ⟨cardFact.row [], r', rfl, by decide +kernel, rfl, hr', hend, hreason⟩

end Rem

end Mwe
