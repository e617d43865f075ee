import MweCore.Recall.Navigator

/-!
# The dials of the navigator

`StaysInside` says what the dials of the funnel promise: how much is asked, opened and charged,
that each door is opened once and only after it was offered, and that an offer leaves out no better
door.  Two invariants carry it.  `Within` holds of the navigator at every moment, also between two
pages of one hop.  `Reaches` is about the pool: a page that some route reached is in it by a route
as good, or everything in it is as good.

`navigate_stays_inside` reads both off the whole loop.
-/

namespace Mwe

namespace RecallNav

open Str

/-! ## What the dials promise -/

/-- A hop at which a decision is asked: every route that reached a page so far, the pool, and the
navigator on its way. -/
structure Hop where
  ground : Grounds
  routes : List Candidate
  pool : List Candidate
  walk : Walk

/-- What is offered at a hop. -/
def Hop.offered (policy : NavigatorPolicy) (h : Hop) : List Candidate :=
  RecallNav.offered h.ground policy h.pool h.walk

/-- The hops of a funnel. -/
def hopsFrom (ground : ℕ → Grounds) (reply : ℕ → Option NavDecision) (policy : NavigatorPolicy) :
    ℕ → List Candidate → List Candidate → Walk → List Hop
  | 0, _, _, _ => []
  | fuel + 1, routes, pool, w =>
    let g := ground w.outcome.hops
    let candidates := offered g policy pool w
    if candidates.isEmpty || w.remaining = 0 then []
    else
      ⟨g, routes, pool, w⟩ ::
        match takeHop g policy (reply w.outcome.hops) candidates w with
        | .stopped _ => []
        | .goesOn w discoveries => hopsFrom ground reply policy fuel (routes ++ discoveries)
          (discoveries ++ candidates) w

/-- The hops of a run. -/
def hopsOf (ground : ℕ → Grounds) (reply : ℕ → Option NavDecision) (policy : NavigatorPolicy)
    (entryPoints : List EntryPoint) (served : Served) : List Hop :=
  if entryPoints.isEmpty then []
  else
    hopsFrom ground reply policy (min policy.maxHops multiHopHardLimit)
      (firstPool (ground 0) policy entryPoints served)
      (firstPool (ground 0) policy entryPoints served) (firstWalk policy served)

/-- The bytes that were spent. -/
def NavigationOutcome.spent (out : NavigationOutcome) : ℕ :=
  (out.fragments.map fun f => len f.text).sum

/-- The addresses of the pages that were brought back. -/
def NavigationOutcome.addresses (out : NavigationOutcome) : List (Str × Str) :=
  out.fragments.map fun f => (f.wikiId, f.page)

/-- The address of a page that was opened. -/
def OpenedPage.address (p : OpenedPage) : Str × Str := (p.wikiId, p.page)

/-- An offer: few pages, each once and by the best of its routes, none of them visited, and none of
a worse tier than a page that was left out, now or before. -/
structure FairOffer (policy : NavigatorPolicy) (h : Hop) : Prop where
  few : (h.offered policy).length ≤ policy.maxCandidates
  distinct : ((h.offered policy).map Candidate.key).Nodup
  unvisited : ∀ c ∈ h.offered policy, c.key ∉ h.walk.visited
  fromPool : ∀ c ∈ h.offered policy, ∃ r ∈ h.pool, r.key = c.key ∧ r.rank = c.rank
  best : ∀ c ∈ h.offered policy, ∀ r ∈ h.pool, r.key = c.key → c.rank ≤ r.rank
  bestEver : ∀ c ∈ h.offered policy, ∀ r ∈ h.routes, r.key = c.key → c.pruneTier ≤ r.pruneTier
  noBetterCut : ∀ c ∈ h.offered policy, ∀ r ∈ h.pool, r.key ∉ h.walk.visited →
    (∀ c' ∈ h.offered policy, c'.key ≠ r.key) → c.rank ≤ r.rank
  noBetterEverCut : ∀ c ∈ h.offered policy, ∀ r ∈ h.routes, r.key ∉ h.walk.visited →
    (∀ c' ∈ h.offered policy, c'.key ≠ r.key) → c.pruneTier ≤ r.pruneTier

/-- A hop in the journal: few pages were opened, and all of them on offer. -/
structure FairHop (policy : NavigatorPolicy) (hop : HopTrace) : Prop where
  few : hop.opened.length ≤ policy.pagesPerHop
  onOffer : ∀ p ∈ hop.opened, ∃ c ∈ hop.candidates, c.wikiId = p.wikiId ∧ c.page = some p.page

/-- What holds of the navigator at every moment. -/
structure Within (policy : NavigatorPolicy) (served : Served) (w : Walk) : Prop where
  charged : w.outcome.spent + w.remaining = policy.charBudget
  once : (w.outcome.fragments.map NavigatedFragment.key).Nodup
  visited : ∀ f ∈ w.outcome.fragments, f.key ∈ w.visited
  servedVisited : ∀ p ∈ served.pages, pageKey p.1 p.2 ∈ w.visited
  notServed : ∀ f ∈ w.outcome.fragments, ∀ p ∈ served.pages, f.key ≠ pageKey p.1 p.2
  notRules : ∀ f ∈ w.outcome.fragments, isRulesPagePath f.page = false

/-- A run inside its dials. -/
structure StaysInside (policy : NavigatorPolicy) (served : Served) (hops : List Hop) (w : Walk) :
    Prop where
  within : Within policy served w
  decisions : w.outcome.hops = hops.length
  fewDecisions : hops.length ≤ min policy.maxHops multiHopHardLimit
  offers : w.outcome.trace.map HopTrace.candidates =
    hops.map fun h => (h.offered policy).map CandidateCard.fromCandidate
  fairHops : ∀ hop ∈ w.outcome.trace, FairHop policy hop
  returned : w.outcome.addresses =
    w.outcome.trace.flatMap fun hop => hop.opened.map OpenedPage.address
  allWithin : ∀ h ∈ hops, Within policy served h.walk
  fairOffers : ∀ h ∈ hops, FairOffer policy h

/-! ## The pool -/

lemma tier_le_of_rank_le {c r : Candidate} (h : c.rank ≤ r.rank) : c.pruneTier ≤ r.pruneTier := by
  rcases Prod.Lex.le_iff.mp h with hlt | ⟨heq, -⟩
  · exact hlt.le
  · exact heq.le

/-- What is kept of a ranked pool: each page that was not visited, once and by the best of its
routes. -/
lemma retainFresh_spec {visited : List PageKey} (seen : List PageKey) {pool : List Candidate}
    (hsorted : pool.Pairwise fun a b => a.rank ≤ b.rank) :
    (retainFresh visited seen pool).Sublist pool ∧
      ((retainFresh visited seen pool).map Candidate.key).Nodup ∧
      (∀ c ∈ retainFresh visited seen pool, c.key ∉ visited ∧ c.key ∉ seen) ∧
      ∀ r ∈ pool, r.key ∉ visited → r.key ∉ seen →
        ∃ c ∈ retainFresh visited seen pool, c.key = r.key ∧ c.rank ≤ r.rank := by
  induction pool generalizing seen with
  | nil => simp [retainFresh]
  | cons c pool ih =>
    obtain ⟨hfirst, hrest⟩ := List.pairwise_cons.mp hsorted
    rw [retainFresh]
    split_ifs with hold
    · obtain ⟨hsub, hnodup, hfresh, hbest⟩ := ih seen hrest
      refine ⟨hsub.cons c, hnodup, hfresh, fun r hr hvisited hseen => ?_⟩
      rcases List.mem_cons.mp hr with rfl | hr
      · simp [hvisited, hseen] at hold
      · exact hbest r hr hvisited hseen
    · simp only [Bool.or_eq_true, List.contains_iff_mem, not_or] at hold
      obtain ⟨hsub, hnodup, hfresh, hbest⟩ := ih (c.key :: seen) hrest
      refine ⟨hsub.cons_cons c, ?_, ?_, ?_⟩
      · rw [List.map_cons, List.nodup_cons]
        refine ⟨?_, hnodup⟩
        intro hmem
        obtain ⟨c', hc', heq⟩ := List.mem_map.mp hmem
        exact (hfresh c' hc').2 (heq ▸ List.mem_cons_self)
      · intro c' hc'
        rcases List.mem_cons.mp hc' with rfl | hc'
        · exact hold
        · exact ⟨(hfresh c' hc').1, fun h => (hfresh c' hc').2 (List.mem_cons_of_mem _ h)⟩
      · intro r hr hvisited hseen
        rcases List.mem_cons.mp hr with rfl | hr
        · exact ⟨r, List.mem_cons_self, rfl, le_rfl⟩
        · by_cases hkey : r.key = c.key
          · exact ⟨c, List.mem_cons_self, hkey.symm, hfirst r hr⟩
          · obtain ⟨c', hc', heq, hle⟩ := hbest r hr hvisited (by simp [hkey, hseen])
            exact ⟨c', List.mem_cons_of_mem c hc', heq, hle⟩

/-- What is left of a pool: a few pages, each once and by the best of its routes, and none that
ranks behind a page that was cut. -/
lemma prunePool_spec (pool : List Candidate) (visited : List PageKey) (cap : ℕ) :
    (prunePool pool visited cap).length ≤ cap ∧
      ((prunePool pool visited cap).map Candidate.key).Nodup ∧
      (∀ c ∈ prunePool pool visited cap, c ∈ pool ∧ c.key ∉ visited) ∧
      (∀ c ∈ prunePool pool visited cap, ∀ r ∈ pool, r.key = c.key → c.rank ≤ r.rank) ∧
      ∀ c ∈ prunePool pool visited cap, ∀ r ∈ pool, r.key ∉ visited →
        (∀ c' ∈ prunePool pool visited cap, c'.key ≠ r.key) → c.rank ≤ r.rank := by
  have hsorted : (pool.insertionSort fun a b => a.rank ≤ b.rank).Pairwise
      fun a b => a.rank ≤ b.rank :=
    List.pairwise_insertionSort (fun a b : Candidate => a.rank ≤ b.rank) pool
  obtain ⟨hsub, hnodup, hfresh, hbest⟩ := @retainFresh_spec visited [] _ hsorted
  have hkept : ∀ r ∈ pool, r.key ∉ visited → ∃ c ∈ retainFresh visited []
      (pool.insertionSort fun a b => a.rank ≤ b.rank), c.key = r.key ∧ c.rank ≤ r.rank :=
    fun r hr hvisited => hbest r ((List.mem_insertionSort _).mpr hr) hvisited (by simp)
  have hranked := hsorted.sublist hsub
  unfold prunePool
  generalize retainFresh visited [] (pool.insertionSort fun a b => a.rank ≤ b.rank) = kept at *
  refine ⟨List.length_take_le cap kept, ?_, ?_, ?_, ?_⟩
  · exact hnodup.sublist ((List.take_sublist cap kept).map Candidate.key)
  · intro c hc
    have hmem := List.mem_of_mem_take hc
    exact ⟨(List.mem_insertionSort _).mp (hsub.subset hmem), (hfresh c hmem).1⟩
  · intro c hc r hr hkey
    have hmem := List.mem_of_mem_take hc
    obtain ⟨c', hc', heq, hle⟩ := hkept r hr (hkey ▸ (hfresh c hmem).1)
    rwa [List.inj_on_of_nodup_map hnodup hmem hc' (hkey.symm.trans heq.symm)]
  · intro c hc r hr hvisited hcut
    obtain ⟨c', hc', heq, hle⟩ := hkept r hr hvisited
    refine le_trans ?_ hle
    rw [← List.take_append_drop cap kept] at hc' hranked
    rcases List.mem_append.mp hc' with hin | hout
    · exact absurd heq (hcut c' hin)
    · exact (List.pairwise_append.mp hranked).2.2 c hc c' hout

/-- Reading the cards changes no page and no rank. -/
lemma mem_fillSummaries {g : Grounds} {pool : List Candidate} {c : Candidate}
    (h : c ∈ fillSummaries g pool) : ∃ r ∈ pool, r.key = c.key ∧ r.rank = c.rank := by
  obtain ⟨r, hr, rfl⟩ := List.mem_map.mp h
  refine ⟨r, hr, ?_⟩
  split_ifs <;> exact ⟨rfl, rfl⟩

lemma keys_fillSummaries (g : Grounds) (pool : List Candidate) :
    (fillSummaries g pool).map Candidate.key = pool.map Candidate.key := by
  rw [fillSummaries, List.map_map]
  apply List.map_congr_left
  intro c _
  dsimp only [Function.comp]
  split_ifs <;> rfl

/-- A page that some route reached and nobody visited is in the pool by a route as good, unless the
whole pool is as good. -/
def Reaches (routes pool : List Candidate) (visited : List PageKey) : Prop :=
  ∀ r ∈ routes, r.key ∉ visited →
    (∃ r' ∈ pool, r'.key = r.key ∧ r'.pruneTier ≤ r.pruneTier) ∨
      ∀ c ∈ pool, c.pruneTier ≤ r.pruneTier

/-- An offer out of a pool that reaches what its routes reached is fair. -/
lemma fairOffer {policy : NavigatorPolicy} {h : Hop}
    (hreach : Reaches h.routes h.pool h.walk.visited) : FairOffer policy h := by
  obtain ⟨hfew, hnodup, hmem, hbest, hcut⟩ :=
    prunePool_spec h.pool h.walk.visited policy.maxCandidates
  have hkeys : (h.offered policy).map Candidate.key =
      (prunePool h.pool h.walk.visited policy.maxCandidates).map Candidate.key :=
    keys_fillSummaries _ _
  have hsource : ∀ c ∈ h.offered policy, ∃ r ∈ prunePool h.pool h.walk.visited
      policy.maxCandidates, r.key = c.key ∧ r.rank = c.rank := fun c hc => mem_fillSummaries hc
  have hunvisited : ∀ c ∈ h.offered policy, c.key ∉ h.walk.visited := by
    intro c hc
    obtain ⟨r, hr, hkey, -⟩ := hsource c hc
    exact hkey ▸ (hmem r hr).2
  have hbestPool : ∀ c ∈ h.offered policy, ∀ r ∈ h.pool, r.key = c.key → c.rank ≤ r.rank := by
    intro c hc r hr hkey
    obtain ⟨c', hc', hkey', hrank⟩ := hsource c hc
    rw [← hrank]
    exact hbest c' hc' r hr (hkey.trans hkey'.symm)
  have hcutPool : ∀ c ∈ h.offered policy, ∀ r ∈ h.pool, r.key ∉ h.walk.visited →
      (∀ c' ∈ h.offered policy, c'.key ≠ r.key) → c.rank ≤ r.rank := by
    intro c hc r hr hvisited hnone
    obtain ⟨c', hc', -, hrank⟩ := hsource c hc
    rw [← hrank]
    refine hcut c' hc' r hr hvisited fun c'' hc'' heq => ?_
    have hin : r.key ∈ (h.offered policy).map Candidate.key := by
      rw [hkeys]
      exact List.mem_map.mpr ⟨c'', hc'', heq⟩
    obtain ⟨o, ho, hkey⟩ := List.mem_map.mp hin
    exact hnone o ho hkey
  have hinPool : ∀ c ∈ h.offered policy, ∃ r ∈ h.pool, r.key = c.key ∧ r.rank = c.rank := by
    intro c hc
    obtain ⟨r, hr, heq⟩ := hsource c hc
    exact ⟨r, (hmem r hr).1, heq⟩
  have hall : ∀ {r : Candidate}, (∀ c ∈ h.pool, c.pruneTier ≤ r.pruneTier) →
      ∀ c ∈ h.offered policy, c.pruneTier ≤ r.pruneTier := by
    intro r hr c hc
    obtain ⟨c', hc', -, hrank⟩ := hinPool c hc
    exact (tier_le_of_rank_le hrank.ge).trans (hr c' hc')
  refine ⟨?_, by rwa [hkeys], hunvisited, hinPool, hbestPool, ?_, hcutPool, ?_⟩
  · simpa [Hop.offered, offered, fillSummaries] using hfew
  · intro c hc r hr hkey
    rcases hreach r hr (hkey ▸ hunvisited c hc) with ⟨r', hr', hkey', hle⟩ | hle
    · exact (tier_le_of_rank_le (hbestPool c hc r' hr' (hkey'.trans hkey))).trans hle
    · exact hall hle c hc
  · intro c hc r hr hvisited hnone
    rcases hreach r hr hvisited with ⟨r', hr', hkey', hle⟩ | hle
    · refine (tier_le_of_rank_le (hcutPool c hc r' hr' (hkey' ▸ hvisited) ?_)).trans hle
      rwa [hkey']
    · exact hall hle c hc

/-- A pool of what was offered and what was discovered reaches what its routes reached. -/
lemma Reaches.next {policy : NavigatorPolicy} {h : Hop} {discoveries : List Candidate}
    {visited : List PageKey} (hreach : Reaches h.routes h.pool h.walk.visited)
    (hgrow : h.walk.visited ⊆ visited) (hfirst : ∀ c ∈ discoveries, c.pruneTier = 0) :
    Reaches (h.routes ++ discoveries) (discoveries ++ h.offered policy) visited := by
  have hfair : FairOffer policy h := fairOffer hreach
  intro r hr hvisited
  rcases List.mem_append.mp hr with hr | hr
  · have hbefore : r.key ∉ h.walk.visited := fun hin => hvisited (hgrow hin)
    by_cases hoffered : ∃ c ∈ h.offered policy, c.key = r.key
    · obtain ⟨c, hc, hkey⟩ := hoffered
      exact .inl ⟨c, List.mem_append_right _ hc, hkey, hfair.bestEver c hc r hr hkey.symm⟩
    · push Not at hoffered
      refine .inr fun c hc => ?_
      rcases List.mem_append.mp hc with hc | hc
      · rw [hfirst c hc]
        exact Nat.zero_le _
      · exact hfair.noBetterEverCut c hc r hr hbefore hoffered
  · exact .inl ⟨r, List.mem_append_left _ hr, rfl, le_rfl⟩

/-! ## Opening a page -/

/-- A text cut to a number of bytes has at most so many. -/
lemma len_upToBytes (n : ℕ) (s : Str) : len (upToBytes n s) ≤ n := by
  induction s generalizing n with
  | nil => exact Nat.zero_le n
  | cons c s ih =>
    rw [upToBytes]
    split_ifs with hfits
    · have hrest := ih (n - c.utf8Size)
      rw [len_cons]
      omega
    · exact Nat.zero_le n

lemma len_takeBudget (text : Str) (budget : ℕ) : len (takeBudget text budget).1 ≤ budget := by
  unfold takeBudget
  split_ifs with hfits
  · exact hfits
  · exact len_upToBytes budget text

/-- What a link leads to is of the first tier, and stays so when it is marked. -/
lemma tier_of_discovered {g : Grounds} {text : Str} {d : DiscoveredWiki} {door c : Candidate}
    (h : c ∈ markWhatExtendsTheMatch g d door (linkedWikiCandidates g text d)) :
    c.pruneTier = 0 := by
  have hlink : ∀ c ∈ linkedWikiCandidates g text d, c.origin = "link".toList := by
    intro c hc
    obtain ⟨link, -, hlink⟩ := List.mem_filterMap.mp hc
    unfold linkDestination at hlink
    split at hlink
    · dsimp only at hlink
      split_ifs at hlink
      obtain ⟨target, -, hsome⟩ := Option.bind_eq_some_iff.mp hlink
      obtain ⟨-, hc⟩ := Option.ite_none_right_eq_some.mp hsome
      rw [← Option.some.inj hc]
      rfl
    · split_ifs at hlink
      obtain ⟨slug, -, hsome⟩ := Option.bind_eq_some_iff.mp hlink
      dsimp only at hsome
      split_ifs at hsome
      obtain ⟨resolved, -, hsome⟩ := Option.bind_eq_some_iff.mp hsome
      obtain ⟨-, hc⟩ := Option.ite_none_left_eq_some.mp hsome
      rw [← Option.some.inj hc]
      rfl
  have hzero : ∀ {c : Candidate}, c.origin = "link".toList → c.pruneTier = 0 := by
    intro c hc
    rw [Candidate.pruneTier, if_pos hc]
  unfold markWhatExtendsTheMatch at h
  dsimp only at h
  split_ifs at h
  · exact hzero (hlink c h)
  · obtain ⟨c', hc', rfl⟩ := List.mem_map.mp h
    exact hzero (hlink c' hc')

/-- A pick is refused, and at most the visited pages have grown, or it opens a candidate that was
not visited, on what is left of the budget. -/
lemma openTarget_cases (g : Grounds) (candidates : List Candidate) (target : NavOpen) (w : Walk) :
    (∃ why more, openTarget g candidates target w =
      ({ w with visited := more ++ w.visited }, .error why)) ∨
    ∃ cand ∈ candidates, ∃ f found truncated, f.wikiId = cand.wikiId ∧ f.page = cand.page ∧
      isRulesPagePath f.page = false ∧ f.key ∉ w.visited ∧ len f.text ≤ w.remaining ∧
      (∀ c ∈ found, c.pruneTier = 0) ∧
      openTarget g candidates target w =
        (⟨f.key :: w.visited, w.remaining - len f.text,
          { w.outcome with truncated, fragments := w.outcome.fragments ++ [f] }⟩, .ok found) := by
  unfold openTarget
  cases hcand : candidates.find? target.names with
  | none => exact .inl ⟨_, [], rfl⟩
  | some cand =>
    dsimp only
    cases hwiki : g.byId cand.wikiId with
    | none => exact .inl ⟨_, [], rfl⟩
    | some d =>
      dsimp only
      by_cases hrules : isRulesPagePath cand.page = true
      · rw [if_pos hrules]
        exact .inl ⟨_, [], rfl⟩
      rw [if_neg hrules]
      by_cases hold : w.visited.contains cand.key = true
      · rw [if_pos hold]
        exact .inl ⟨_, [], rfl⟩
      rw [if_neg hold]
      by_cases hacl : (!g.aclLoads d cand.page) = true
      · rw [if_pos hacl]
        exact .inl ⟨_, [cand.key], rfl⟩
      rw [if_neg hacl]
      cases hopen : (g.openProjected d cand.page).filter fun text => !(trim text).isEmpty with
      | none => exact .inl ⟨_, [cand.key], rfl⟩
      | some projected =>
        refine .inr ⟨cand, List.mem_of_find?_eq_some hcand,
          ⟨cand.wikiId, cand.page, (takeBudget projected w.remaining).1,
            (takeBudget projected w.remaining).2⟩, _, _, rfl, rfl, by simpa using hrules,
          fun h => hold (List.contains_iff_mem.mpr h), len_takeBudget projected w.remaining,
          fun c hc => ?_, rfl⟩
        exact tier_of_discovered hc

lemma spent_append (out : NavigationOutcome) (f : NavigatedFragment) (truncated : Bool) :
    ({ out with truncated, fragments := out.fragments ++ [f] } : NavigationOutcome).spent =
      out.spent + len f.text := by
  simp [NavigationOutcome.spent]

/-- A page that is opened keeps what holds of the navigator. -/
lemma Within.open {policy : NavigatorPolicy} {served : Served} {w : Walk}
    (h : Within policy served w) {f : NavigatedFragment} {truncated : Bool}
    (hnew : f.key ∉ w.visited) (hfits : len f.text ≤ w.remaining)
    (hrules : isRulesPagePath f.page = false) :
    Within policy served ⟨f.key :: w.visited, w.remaining - len f.text,
      { w.outcome with truncated, fragments := w.outcome.fragments ++ [f] }⟩ := by
  have hall : ∀ {P : NavigatedFragment → Prop}, (∀ f' ∈ w.outcome.fragments, P f') → P f →
      ∀ f' ∈ w.outcome.fragments ++ [f], P f' := by
    intro P hold hlast f' hf'
    rcases List.mem_append.mp hf' with hf' | hf'
    · exact hold f' hf'
    · rwa [List.mem_singleton.mp hf']
  refine ⟨?_, ?_, ?_, ?_, ?_, hall h.notRules hrules⟩
  · have hcharged := h.charged
    rw [spent_append]
    dsimp only
    omega
  · rw [List.map_append, List.nodup_append]
    refine ⟨h.once, by simp, ?_⟩
    rintro k hk _ hlast rfl
    obtain ⟨f', hf', rfl⟩ := List.mem_map.mp hk
    rw [List.map_singleton, List.mem_singleton] at hlast
    exact hnew (hlast ▸ h.visited f' hf')
  · exact hall (fun f' hf' => List.mem_cons_of_mem _ (h.visited f' hf')) List.mem_cons_self
  · exact fun p hp => List.mem_cons_of_mem _ (h.servedVisited p hp)
  · exact hall h.notServed fun p hp heq => hnew (heq ▸ h.servedVisited p hp)

/-! ## The pages of a decision -/

/-- What opening at most so many pages comes to, in the middle of a hop. -/
structure Opens (candidates : List Candidate) (n : ℕ)
    (st st' : Walk × HopTrace × List Candidate) : Prop where
  visited : st.1.visited ⊆ st'.1.visited
  hops : st'.1.outcome.hops = st.1.outcome.hops
  trace : st'.1.outcome.trace = st.1.outcome.trace
  offered : st'.2.1.candidates = st.2.1.candidates
  opened : ∃ pages : List OpenedPage, st'.2.1.opened = st.2.1.opened ++ pages ∧
    pages.length ≤ n ∧ (∀ p ∈ pages, ∃ c ∈ candidates, c.wikiId = p.wikiId ∧ c.page = p.page) ∧
    st'.1.outcome.addresses = st.1.outcome.addresses ++ pages.map OpenedPage.address
  found : ∃ found : List Candidate, st'.2.2 = st.2.2 ++ found ∧ ∀ c ∈ found, c.pruneTier = 0

lemma Opens.refl (candidates : List Candidate) (st : Walk × HopTrace × List Candidate) :
    Opens candidates 0 st st :=
  ⟨List.Subset.refl _, rfl, rfl, rfl, ⟨[], by simp⟩, ⟨[], by simp⟩⟩

lemma Opens.trans {candidates : List Candidate} {n m : ℕ}
    {st st' st'' : Walk × HopTrace × List Candidate} (h : Opens candidates n st st')
    (h' : Opens candidates m st' st'') : Opens candidates (n + m) st st'' := by
  obtain ⟨pages, hpages, hfew, hfrom, haddr⟩ := h.opened
  obtain ⟨pages', hpages', hfew', hfrom', haddr'⟩ := h'.opened
  obtain ⟨found, hfound, htier⟩ := h.found
  obtain ⟨found', hfound', htier'⟩ := h'.found
  refine ⟨List.Subset.trans h.visited h'.visited, h'.hops.trans h.hops, h'.trace.trans h.trace,
    h'.offered.trans h.offered, ⟨pages ++ pages', ?_, ?_, ?_, ?_⟩, ⟨found ++ found', ?_, ?_⟩⟩
  · rw [hpages', hpages, List.append_assoc]
  · rw [List.length_append]
    omega
  · intro p hp
    exact (List.mem_append.mp hp).elim (hfrom p) (hfrom' p)
  · rw [haddr', haddr, List.map_append, List.append_assoc]
  · rw [hfound', hfound, List.append_assoc]
  · intro c hc
    exact (List.mem_append.mp hc).elim (htier c) (htier' c)

lemma Opens.mono {candidates : List Candidate} {n m : ℕ}
    {st st' : Walk × HopTrace × List Candidate} (h : Opens candidates n st st') (hle : n ≤ m) :
    Opens candidates m st st' := by
  obtain ⟨pages, hpages, hfew, hrest⟩ := h.opened
  exact ⟨h.visited, h.hops, h.trace, h.offered, ⟨pages, hpages, hfew.trans hle, hrest⟩, h.found⟩

/-- One pick opens at most one page. -/
lemma opens_openTarget {policy : NavigatorPolicy} {served : Served} (g : Grounds)
    (candidates : List Candidate) (target : NavOpen) {w : Walk} (hop : HopTrace)
    (discoveries : List Candidate) (hw : Within policy served w) :
    let out := openTarget g candidates target w
    Within policy served out.1 ∧
      Opens candidates 1 (w, hop, discoveries)
        (out.1, noted hop target out.1.outcome.fragments[w.outcome.fragments.length]? out.2,
          discoveries ++ out.2.toOption.getD []) := by
  obtain ⟨why, more, hout⟩ | ⟨cand, hcand, f, found, truncated, hwiki, hpage, hrules, hnew, hfits,
    htier, hout⟩ := openTarget_cases g candidates target w
  · rw [hout]
    constructor
    · exact ⟨hw.charged, hw.once, fun f hf => List.mem_append_right _ (hw.visited f hf),
        fun p hp => List.mem_append_right _ (hw.servedVisited p hp), hw.notServed, hw.notRules⟩
    · exact ⟨List.subset_append_right _ _, rfl, rfl, rfl, ⟨[], by simp [noted]⟩,
        ⟨[], by simp [Except.toOption]⟩⟩
  · rw [hout]
    have hlast : (w.outcome.fragments ++ [f])[w.outcome.fragments.length]? = some f := by
      simp
    refine ⟨hw.open hnew hfits hrules, ?_⟩
    refine ⟨List.subset_cons_self _ _, rfl, rfl, rfl, ?_, ⟨found, rfl, htier⟩⟩
    dsimp only
    rw [hlast]
    refine ⟨[_], rfl, le_rfl, ?_, ?_⟩
    · intro p hp
      rw [List.mem_singleton.mp hp]
      exact ⟨cand, hcand, hwiki.symm, hpage.symm⟩
    · simp [NavigationOutcome.addresses, OpenedPage.address]

/-- The picks of a decision open at most as many pages as they are. -/
lemma opens_openTargets {policy : NavigatorPolicy} {served : Served} (g : Grounds)
    (candidates : List Candidate) (targets : List NavOpen)
    (st : Walk × HopTrace × List Candidate) (hw : Within policy served st.1) :
    Within policy served (openTargets g candidates targets st).1 ∧
      Opens candidates targets.length st (openTargets g candidates targets st) := by
  induction targets generalizing st with
  | nil => exact ⟨hw, .refl candidates st⟩
  | cons target targets ih =>
    obtain ⟨w, hop, discoveries⟩ := st
    obtain ⟨hwithin, hopens⟩ := opens_openTarget g candidates target hop discoveries hw
    rw [openTargets]
    split_ifs with hspent
    · exact ⟨hwithin, hopens.mono (by simp)⟩
    · obtain ⟨hwithin', hopens'⟩ := ih (_, _, _) hwithin
      refine ⟨hwithin', ?_⟩
      rw [List.length_cons, Nat.add_comm]
      exact hopens.trans hopens'

/-! ## One decision -/

/-- What one decision adds to the journal and to what is brought back. -/
structure Journaled (policy : NavigatorPolicy) (candidates : List Candidate) (w w' : Walk) :
    Prop where
  hops : w'.outcome.hops = w.outcome.hops + 1
  visited : w.visited ⊆ w'.visited
  entry : ∃ hop, w'.outcome.trace = w.outcome.trace ++ [hop] ∧
    hop.candidates = candidates.map CandidateCard.fromCandidate ∧ FairHop policy hop ∧
    w'.outcome.addresses = w.outcome.addresses ++ hop.opened.map OpenedPage.address

/-- The funnel that stops after a decision, or goes on. -/
def HopEnd.walk : HopEnd → Walk
  | .stopped w => w
  | .goesOn w _ => w

/-- The pages a decision discovered. -/
def HopEnd.discoveries : HopEnd → List Candidate
  | .stopped _ => []
  | .goesOn _ discoveries => discoveries

lemma Within.stopAt {policy : NavigatorPolicy} {served : Served} {w : Walk} (stop : NavStop)
    (h : Within policy served w) : Within policy served (w.stopAt stop) :=
  ⟨h.charged, h.once, h.visited, h.servedVisited, h.notServed, h.notRules⟩

/-- A decision keeps what holds of the navigator, and is journaled. -/
lemma takeHop_spec {policy : NavigatorPolicy} {served : Served} (g : Grounds)
    (reply : Option NavDecision) (candidates : List Candidate) {w : Walk}
    (hw : Within policy served w) :
    Within policy served (takeHop g policy reply candidates w).walk ∧
      Journaled policy candidates w (takeHop g policy reply candidates w).walk ∧
      ∀ c ∈ (takeHop g policy reply candidates w).discoveries, c.pruneTier = 0 := by
  -- a hop that opens nothing
  have hidle : ∀ (hop : HopTrace) (stop : NavStop),
      hop.candidates = candidates.map CandidateCard.fromCandidate → hop.opened = [] →
      let w' : Walk := { w with outcome.hops := w.outcome.hops + 1 }
      Within policy served ((w'.journal hop).stopAt stop) ∧
        Journaled policy candidates w ((w'.journal hop).stopAt stop) := by
    intro hop stop hcandidates hopened
    refine ⟨⟨hw.charged, hw.once, hw.visited, hw.servedVisited, hw.notServed, hw.notRules⟩,
      ⟨rfl, List.Subset.refl _, hop, rfl, hcandidates, ⟨by simp [hopened], by simp [hopened]⟩, ?_⟩⟩
    rw [hopened, List.map_nil, List.append_nil]
    rfl
  unfold takeHop
  cases reply with
  | none =>
    obtain ⟨hwithin, hjournal⟩ := hidle { candidates := candidates.map CandidateCard.fromCandidate }
      .llmDegraded rfl rfl
    exact ⟨hwithin, hjournal, by simp [HopEnd.discoveries]⟩
  | some decision =>
    dsimp only
    by_cases hdone : (decision.done && decision.opens.isEmpty) = true
    · rw [if_pos hdone]
      obtain ⟨hwithin, hjournal⟩ := hidle { candidates := candidates.map CandidateCard.fromCandidate
                                            done := decision.done
                                            note := decision.note } .done rfl rfl
      exact ⟨hwithin, hjournal, by simp [HopEnd.discoveries]⟩
    rw [if_neg hdone]
    have hfirst : Within policy served { w with outcome.hops := w.outcome.hops + 1 } :=
      ⟨hw.charged, hw.once, hw.visited, hw.servedVisited, hw.notServed, hw.notRules⟩
    obtain ⟨hwithin, hopens⟩ := opens_openTargets g candidates
      (decision.opens.take policy.pagesPerHop)
      ({ w with outcome.hops := w.outcome.hops + 1 },
        { candidates := candidates.map CandidateCard.fromCandidate
          done := decision.done
          note := decision.note }, []) hfirst
    generalize openTargets g candidates (decision.opens.take policy.pagesPerHop) _ = out
      at hwithin hopens ⊢
    obtain ⟨pages, hpages, hfew, hfrom, haddr⟩ := hopens.opened
    obtain ⟨found, hfound, htier⟩ := hopens.found
    rw [List.nil_append] at hpages hfound
    have hjournaled : Within policy served (out.1.journal out.2.1) ∧
        Journaled policy candidates w (out.1.journal out.2.1) := by
      refine ⟨⟨hwithin.charged, hwithin.once, hwithin.visited, hwithin.servedVisited,
        hwithin.notServed, hwithin.notRules⟩, ⟨hopens.hops, hopens.visited, out.2.1, ?_,
          hopens.offered, ⟨?_, ?_⟩, ?_⟩⟩
      · exact congrArg (· ++ [out.2.1]) hopens.trace
      · rw [hpages]
        exact hfew.trans (List.length_take_le _ _)
      · intro p hp
        rw [hpages] at hp
        obtain ⟨c, hc, hwiki, hpage⟩ := hfrom p hp
        rw [hopens.offered]
        exact ⟨_, List.mem_map_of_mem hc, hwiki, congrArg some hpage⟩
      · rw [hpages]
        exact haddr
    split_ifs with hnothing
    · refine ⟨hjournaled.1.stopAt _, ?_, by simp [HopEnd.discoveries]⟩
      obtain ⟨hhops, hvisited, hentry⟩ := hjournaled.2
      exact ⟨hhops, hvisited, hentry⟩
    · refine ⟨hjournaled.1, hjournaled.2, ?_⟩
      change ∀ c ∈ out.2.2, c.pruneTier = 0
      rwa [hfound]

/-! ## The whole funnel -/

/-- What a funnel adds, from one hop on. -/
structure Trail (policy : NavigatorPolicy) (served : Served) (hops : List Hop) (w w' : Walk) :
    Prop where
  within : Within policy served w'
  decisions : w'.outcome.hops = w.outcome.hops + hops.length
  trace : ∃ journal, w'.outcome.trace = w.outcome.trace ++ journal ∧
    journal.map HopTrace.candidates =
      hops.map (fun h => (h.offered policy).map CandidateCard.fromCandidate) ∧
    (∀ hop ∈ journal, FairHop policy hop) ∧
    w'.outcome.addresses =
      w.outcome.addresses ++ journal.flatMap fun hop => hop.opened.map OpenedPage.address
  allWithin : ∀ h ∈ hops, Within policy served h.walk
  fair : ∀ h ∈ hops, FairOffer policy h

lemma Trail.nil {policy : NavigatorPolicy} {served : Served} {w : Walk}
    (hw : Within policy served w) : Trail policy served [] w w :=
  ⟨hw, rfl, ⟨[], by simp⟩, by simp, by simp⟩

/-- A trail of one hop and what follows. -/
lemma Trail.cons {policy : NavigatorPolicy} {served : Served} {h : Hop} {hops : List Hop}
    {w' w'' : Walk} (hw : Within policy served h.walk) (hfair : FairOffer policy h)
    (hfirst : Journaled policy (h.offered policy) h.walk w')
    (hrest : Trail policy served hops w' w'') : Trail policy served (h :: hops) h.walk w'' := by
  obtain ⟨hop, htrace, hcandidates, hfairHop, haddr⟩ := hfirst.entry
  obtain ⟨journal, htrace', hcandidates', hfairHops, haddr'⟩ := hrest.trace
  refine ⟨hrest.within, ?_, ⟨hop :: journal, ?_, ?_, ?_, ?_⟩, ?_, ?_⟩
  · rw [hrest.decisions, hfirst.hops, List.length_cons]
    omega
  · rw [htrace', htrace, List.append_assoc, List.singleton_append]
  · rw [List.map_cons, List.map_cons, hcandidates, hcandidates']
  · exact List.forall_mem_cons.mpr ⟨hfairHop, hfairHops⟩
  · rw [haddr', haddr, List.flatMap_cons, List.append_assoc]
  · exact List.forall_mem_cons.mpr ⟨hw, hrest.allWithin⟩
  · exact List.forall_mem_cons.mpr ⟨hfair, hrest.fair⟩

section Runs

variable {ground : ℕ → Grounds} {reply : ℕ → Option NavDecision} {policy : NavigatorPolicy}
  {served : Served}

lemma length_hopsFrom_le (fuel : ℕ) (routes pool : List Candidate) (w : Walk) :
    (hopsFrom ground reply policy fuel routes pool w).length ≤ fuel := by
  induction fuel generalizing routes pool w with
  | zero => exact Nat.zero_le 0
  | succ fuel ih =>
    rw [hopsFrom]
    split_ifs
    · exact Nat.zero_le _
    · rw [List.length_cons]
      cases takeHop (ground w.outcome.hops) policy (reply w.outcome.hops)
          (offered (ground w.outcome.hops) policy pool w) w with
      | stopped _ => exact Nat.succ_le_succ (Nat.zero_le fuel)
      | goesOn _ _ => exact Nat.succ_le_succ (ih _ _ _)

/-- By induction on the hops that are left: the trail of a funnel whose pool reaches what its routes
reached. -/
lemma trail_funnel (fuel : ℕ) (routes pool : List Candidate) {w : Walk}
    (hw : Within policy served w) (hreach : Reaches routes pool w.visited) :
    Trail policy served (hopsFrom ground reply policy fuel routes pool w) w
      (funnel ground reply policy fuel pool w) := by
  induction fuel generalizing routes pool w with
  | zero => exact .nil hw
  | succ fuel ih =>
    rw [hopsFrom, funnel]
    by_cases hempty : ((offered (ground w.outcome.hops) policy pool w).isEmpty ||
        decide (w.remaining = 0)) = true
    · rw [if_pos hempty, if_pos hempty]
      obtain ⟨hwithin, hdecisions, htrace, hall, hfair⟩ := Trail.nil hw
      exact ⟨hwithin.stopAt _, hdecisions, htrace, hall, hfair⟩
    rw [if_neg hempty, if_neg hempty]
    let h : Hop := ⟨ground w.outcome.hops, routes, pool, w⟩
    have hfair : FairOffer policy h := fairOffer hreach
    obtain ⟨hwithin, hjournal, htier⟩ := takeHop_spec (ground w.outcome.hops)
      (reply w.outcome.hops) (h.offered policy) hw
    change Trail policy served (h :: match takeHop (ground w.outcome.hops) policy
      (reply w.outcome.hops) (h.offered policy) w with
      | .stopped _ => []
      | .goesOn w discoveries => hopsFrom ground reply policy fuel (routes ++ discoveries)
        (discoveries ++ h.offered policy) w) h.walk (match takeHop (ground w.outcome.hops) policy
      (reply w.outcome.hops) (h.offered policy) w with
      | .stopped w => w
      | .goesOn w discoveries =>
        funnel ground reply policy fuel (discoveries ++ h.offered policy) w)
    cases htake : takeHop (ground w.outcome.hops) policy (reply w.outcome.hops)
        (h.offered policy) w with
    | stopped w' =>
      rw [htake] at hwithin hjournal
      exact .cons hw hfair hjournal (.nil hwithin)
    | goesOn w' discoveries =>
      rw [htake] at hwithin hjournal htier
      have hnext : Reaches (h.routes ++ discoveries) (discoveries ++ h.offered policy) w'.visited :=
        Reaches.next hreach hjournal.visited htier
      exact .cons hw hfair hjournal (ih _ _ hwithin hnext)

/-- The navigator before its first hop. -/
lemma within_firstWalk (policy : NavigatorPolicy) (served : Served) :
    Within policy served (firstWalk policy served) where
  charged := by simp [firstWalk, NavigationOutcome.spent]
  once := by simp [firstWalk]
  visited := by simp [firstWalk]
  servedVisited p hp := List.mem_map.mpr ⟨p, hp, rfl⟩
  notServed := by simp [firstWalk]
  notRules := by simp [firstWalk]

end Runs

/-- For every fan, every tree, every set of served pages, every policy and every sequence of replies
the navigator stays inside its dials. -/
theorem navigate_stays_inside (ground : ℕ → Grounds) (reply : ℕ → Option NavDecision)
    (policy : NavigatorPolicy) (entryPoints : List EntryPoint) (served : Served) :
    StaysInside policy served (hopsOf ground reply policy entryPoints served)
      (walkOf ground reply policy entryPoints served) := by
  have hfirst := within_firstWalk policy served
  unfold hopsOf walkOf
  split_ifs with hempty
  · refine ⟨⟨hfirst.charged, hfirst.once, hfirst.visited, hfirst.servedVisited,
      hfirst.notServed, hfirst.notRules⟩, rfl, Nat.zero_le _, rfl, by simp, rfl, by simp, by simp⟩
  · generalize hpool : firstPool (ground 0) policy entryPoints served = pool
    have hreach : Reaches pool pool (firstWalk policy served).visited :=
      fun r hr _ => .inl ⟨r, hr, rfl, le_rfl⟩
    have htrail := @trail_funnel ground reply policy served
      (min policy.maxHops multiHopHardLimit) pool pool _ hfirst hreach
    obtain ⟨journal, htrace, hcandidates, hfairHops, haddr⟩ := htrail.trace
    rw [show (firstWalk policy served).outcome.trace = [] from rfl, List.nil_append] at htrace
    refine ⟨htrail.within, ?_, length_hopsFrom_le _ _ _ _, ?_, ?_, ?_, htrail.allWithin,
      htrail.fair⟩
    · rw [htrail.decisions]
      exact Nat.zero_add _
    · rw [htrace, hcandidates]
    · rwa [htrace]
    · rw [haddr, htrace]
      rfl

/-- A wiki whose pages all say the same and link to one another. -/
def gardenGround : Grounds where
  wikis := [{ wikiId := "garden".toList, absDir := ["srv".toList, "garden".toList] }]
  readerCanReadIn _ := true
  readerPageKeywords _ _ := []
  cardLine _ _ := none
  resolvePageCaseInsensitive _ rel := some rel
  isFile _ _ := true
  aclLoads _ _ := true
  openProjected _ _ := some "See [[garden/pond]], [[garden/shed]].".toList
  targetsBeside _ _ _ := []

/-- The model asks for one page twice and invents another; then it asks for one it was led to. -/
example :
    let opens page : NavOpen := ⟨"garden".toList, some page⟩
    let out := navigate (fun _ => gardenGround)
      (fun n => some { opens := if n = 0 then [opens "beds.md".toList, opens "./beds.md".toList,
        opens "beds.md".toList] else [opens "Pond.md".toList, opens "pond.md".toList] })
      {} [{ wikiId := "garden".toList, page := "beds.md".toList, origin := .rag }] {}
    out.addresses = [("garden".toList, "beds.md".toList), ("garden".toList, "pond.md".toList)] ∧
      out.hops = 2 ∧ out.stop = .hopCap := by
  decide +kernel

end RecallNav

end Mwe
