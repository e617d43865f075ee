import MweCore.FactIndex.Active
import MweCore.FactIndex.Fences
import MweCore.Rem.Passes

/-!
# A night

The passes, the apply of a pending merge, and the two calls that change who may read a fact all
work on one fact index, each a statement or a reply at a time.  A pass acts on the rows it read
when it began on a wiki or a page; what the others wrote since is not in them.
-/

namespace Mwe

/-- A row as `setAuthoredRefs` leaves it. -/
def FactRow.withRefs (refs : List Str) (now : Str) (r : FactRow) : FactRow :=
  { r with authoredRefs := refs, updatedAt := now }

@[simp] lemma FactRow.factId_withRefs (refs : List Str) (now : Str) (r : FactRow) :
    (r.withRefs refs now).factId = r.factId := rfl

namespace FactIndex

/-- Replace the references of a fact that stands. -/
def setAuthoredRefs (facts : FactTable) (factId : FactId) (refs : List Str) (now : Str) :
    FactTable :=
  facts.update (fun r => r.factId == factId && r.isActive) (FactRow.withRefs refs now)
    (FactRow.factId_withRefs refs now)

end FactIndex

namespace Rem

open FactIndex

/-! ## One merge -/

/-- How far a merge is. -/
inductive Stage where
  | start
  | winnerFound (winner : FactRow)
  | retiring (winner loser : FactRow) (phase : Fences.Phase)
  | carrying (refs : List Str)
  | over (merged : Bool)

/-- A merge under way. -/
structure Merging (T : Type*) where
  winner : FactId
  loser : FactId
  /-- the rows it was decided on, unless it is a proposal's -/
  compared : Option (FactRow × FactRow)
  whenUnstated : T
  stage : Stage := .start

/-- The references of the winner, and those only the loser has. -/
def unionRefs (winner loser : FactRow) : List Str :=
  loser.authoredRefs.foldl (fun refs r => if refs.contains r then refs else refs ++ [r])
    winner.authoredRefs

/-- What a pending merge names. -/
structure DedupContext where
  loserFactId : Str
  winnerFactId : Str

section Merges

variable {T : Type*} [LinearOrder T] (chrono : Chrono T) (staged : FactId → Option Str)

/-- The next statement of `applyDedupMerge`; what it does to the pages is not here. -/
def Merging.next (facts : FactTable) (now : Str) (m : Merging T) : Option (FactTable × Stage) :=
  match m.stage with
  | .start =>
    if m.loser = m.winner then some (facts, .over false)
    else
      match facts.get? m.winner with
      | none => some (facts, .over false)
      | some winner => some (facts, if winner.isActive then .winnerFound winner else .over false)
  | .winnerFound winner =>
    match facts.get? m.loser with
    | none => some (facts, .over false)
    | some loser =>
      some (facts, if loser.isActive then .retiring winner loser .start else .over false)
  | .retiring _ _ (.returned false) => some (facts, .over false)
  | .retiring winner loser (.returned true) =>
    let refs := unionRefs winner loser
    some (facts, if refs.length = winner.authoredRefs.length then .over true else .carrying refs)
  | .retiring winner loser phase =>
    (Fences.next chrono staged facts now (.markSuperseded m.loser m.winner m.whenUnstated)
      phase).map fun out => (out.1, .retiring winner loser out.2)
  | .carrying refs => some (setAuthoredRefs facts m.winner refs now, .over true)
  | .over _ => none

end Merges

/-! ## Calls that change who may read a fact -/

/-- A call of one of the two operations. -/
inductive AccessCall where
  | restrictTo (factId : FactId) (excluded readers : List Principal)
  | setAcl (factId : FactId) (subject : Principal) (allow : List Principal)
      (sender : Option Principal) (excluded : Option (List Principal))

/-- The fact a call is about. -/
def AccessCall.factId : AccessCall → FactId
  | .restrictTo factId _ _ => factId
  | .setAcl factId _ _ _ _ => factId

/-- What a call writes over the row of its fact, given the row it read. -/
def AccessCall.write (row : FactRow) (now : Str) : AccessCall → FactRow → FactRow
  | .restrictTo _ excluded readers =>
    FactRow.restricted (row.excludedIds ++ excluded).eraseDups readers now
  | .setAcl _ subject allow sender excluded => FactRow.withAcl subject allow sender excluded now

@[simp] lemma AccessCall.factId_write (c : AccessCall) (row : FactRow) (now : Str) (r : FactRow) :
    (c.write row now r).factId = r.factId := by
  cases c <;> rfl

/-- The next statement of a call. -/
def AccessCall.next (facts : FactTable) (now : Str) (c : AccessCall) :
    Fences.Phase → Option (FactTable × Fences.Phase)
  | .start =>
    match activeRow facts c.factId with
    | none => some (facts, .returned false)
    | some row => some (facts, .found row)
  | .found row => some (updateActive facts c.factId (c.write row now) (c.factId_write row now),
      .returned true)
  | _ => none

/-! ## The passes under way -/

/-- What the model, and the pages, answer a pass that waits. -/
inductive Answer where
  | nothing
  /-- the verdict on a pair is known: they differ -/
  | settled
  /-- the model could not be read -/
  | failed
  | no
  | yes
  /-- a page: the facts in the order of their markers, its place in the wiki, and whether it is
  heavy enough to hold two subjects -/
  | reading (order : List FactId) (pageInWiki : Option Str) (heavy : Bool)
  | decision (d : PageDecision)
  | items (items : List CompletionItem)
  /-- where the wiki of a page is, which of the moving facts were moved, and to which region -/
  | split (dir : Str) (moved : List FactId) (region : FactId → Option ℤ × Option ℤ)

/-- The revisor: the wikis still to come, the pairs of the one in hand, the facts retired there, and
how many pairs were merged and examined. -/
structure Revision where
  scopes : List Str
  pairs : List (FactRow × FactRow) := []
  proposedLosers : List FactId := []
  applied : ℕ := 0
  examined : ℕ := 0

/-- A question put to the owner of an identity card. -/
structure CardRetype where
  factId : FactId
  subject : Principal
  text : Str
  ends : Option Str
  sourcePath : Str
  wikiId : Str
  deriving DecidableEq

/-- The page judge: the pages to be read, those read, and the rest of what it said of the one in
hand. -/
structure Judgement (T : Type*) where
  depth : JudgementDepth
  paths : List Str
  pages : List JudgedPage := []
  inHand : Option (JudgedPage × T × List (ℕ × LlmPageVerdict) × Option LlmPageSplit) := none
  decided : List FactId := []

/-- Which of the two sweeps. -/
inductive SweepKind where
  | completion | contradiction
  deriving DecidableEq

/-- A sweep that closes facts: the wikis to be read, what was read, the cases, and the rest of the
answer on the case in hand. -/
structure Sweep (T : Type*) where
  kind : SweepKind
  scopes : List Str
  willRead : List Str
  since : T
  now : T
  byWiki : List (Str × List FactRow) := []
  gathered : List (FactRow × List FactRow) := []
  cases : Option (List (FactRow × List FactRow)) := none
  closedThisCycle : List FactId := []
  closing : Option (FactRow × List FactRow × T × List CompletionItem × List FactId) := none

/-- Whoever is at work. -/
inductive Actor (T : Type*) where
  | access (c : AccessCall) (phase : Fences.Phase)
  | apply (m : Merging T)
  | revisor (r : Revision) (m : Option (Merging T))
  | judge (j : Judgement T) (m : Option (Merging T))
  | sweep (s : Sweep T)

/-- The merge somebody is at. -/
def Actor.merging {T : Type*} : Actor T → Option (Merging T)
  | .apply m => some m
  | .revisor _ m => m
  | .judge _ m => m
  | _ => none

/-- A claim on one line, cut. -/
def oneLineCapped (text : Str) (cap : ℕ) : Str :=
  let line := text.map fun c => if c = '\n' then ' ' else c
  if cap < line.length then line.take cap ++ ['…'] else line

section Steps

variable {T S : Type*} [LinearOrder T] [LinearOrder S] (chrono : Chrono T) (lib : Library T S)
  (policy : RemPolicy S) (staged : FactId → Option Str)

/-- The next pair of the revisor, and the pair it merges. -/
def Revision.next (facts : FactTable) (answer : Answer) (r : Revision) :
    Option (Revision × Option (FactRow × FactRow)) :=
  match r.pairs, r.scopes with
  | [], [] => none
  | [], wiki :: scopes =>
    if policy.revisorCap ≤ r.applied then some ({ r with scopes := [] }, none)
    else
      some ({ r with
        scopes
        pairs := pairsOf (newestFirst lib (findActiveInWiki facts wiki))
        proposedLosers := [] }, none)
  | (newer, older) :: rest, _ =>
    if policy.revisorCap ≤ r.applied then some ({ r with scopes := [], pairs := [] }, none)
    else if r.proposedLosers.contains newer.factId || r.proposedLosers.contains older.factId ||
        !nominated lib policy newer older then
      some ({ r with pairs := rest }, none)
    else
      match answer with
      | .settled => some ({ r with pairs := rest }, none)
      | .failed | .no | .yes =>
        if policy.revisorExaminedCap ≤ r.examined then
          some ({ r with scopes := [], pairs := [] }, none)
        else
          some ({ r with pairs := rest, examined := r.examined + 1 },
            match answer with
            | .yes => some (newer, older)
            | _ => none)
      | _ => none

/-- What the revisor notes when a merge is over. -/
def Revision.noted (r : Revision) (loser : FactId) (merged : Bool) : Revision :=
  if merged then { r with applied := r.applied + 1, proposedLosers := r.proposedLosers ++ [loser] }
  else r

/-- Carry out what a verdict comes to, unless it is a merge: the fact index, the questions asked,
and the fact that was decided. -/
def carryOut (facts : FactTable) (asked : List CardRetype) (now : Str) :
    Act T → FactTable × List CardRetype × Option FactId
  | .endAt row stop =>
    match setValidity chrono facts row.factId none (some stop) now with
    | (.applied _ _, facts) => (facts, asked, some row.factId)
    | (_, facts) => (facts, asked, none)
  | .close row stop reason successor when =>
    match closeValidity chrono facts row.factId stop reason (some successor.factId) when now with
    | (some _, facts) => (facts, asked, some row.factId)
    | (none, facts) => (facts, asked, none)
  | .retype row ends saidAt =>
    match setFactType chrono facts row.factId "state".toList ends saidAt now with
    | (some _, facts) => (facts, asked, some row.factId)
    | (none, facts) => (facts, asked, none)
  | .ask row ends =>
    let text := oneLineCapped row.text 300
    if asked.any fun q => q.factId = row.factId && q.text = text then (facts, asked, none)
    else
      (facts, asked ++ [{ factId := row.factId, subject := row.subjectId, text, ends
                          sourcePath := row.sourcePath, wikiId := row.wikiId }], none)
  | _ => (facts, asked, none)

/-- Move the facts a split names to the page it opens. -/
def applyPageSplit (facts : FactTable) (page : JudgedPage) (split : LlmPageSplit) (dir : Str)
    (moved : List FactId) (region : FactId → Option ℤ × Option ℤ) (now : Str) : FactTable :=
  match page.pageInWiki with
  | none => facts
  | some sourcePage =>
    if !page.heavyEnoughToSplit then facts
    else
      match factsThatMove page split with
      | none => facts
      | some moving =>
        match pageTheSplitOpens split moving sourcePage with
        | none => facts
        | some target =>
          if moving.all fun row => (facts.get? row.factId).any fun r =>
              r.isActive && r.sourcePath = page.sourcePath then
            moved.foldl (fun facts id =>
              if moving.any fun row => row.factId == id then
                moveRegion facts id (dir ++ '/' :: target) (region id) now
              else facts) facts
          else facts

/-- A page as it is read. -/
def gatherPage (facts : FactTable) (depth : JudgementDepth) (path : Str) (order : List FactId)
    (pageInWiki : Option Str) (heavy : Bool) : JudgedPage :=
  let live := findActiveBySourcePath facts path
  let rows := order.filterMap fun id => live.find? fun r => r.factId = id
  { wikiId := (rows.head?.map FactRow.wikiId).getD []
    sourcePath := path
    facts := rows
    pageInWiki
    heavyEnoughToSplit := depth.reshapesThePage && !isIdentityCardPage path &&
      !isChannelPage path && heavy }

/-- The verdicts in the order of their markers. -/
def inMarkerOrder (verdicts : List (Str × LlmPageVerdict)) : List (ℕ × LlmPageVerdict) :=
  (verdicts.filterMap fun v => (markerNumber v.1).map (·, v.2)).insertionSort fun a b => a.1 ≤ b.1

/-- The next step of the judge, and the pair it merges. -/
def Judgement.next (facts : FactTable) (asked : List CardRetype) (now : Str) (memoryNow : T)
    (answer : Answer) (j : Judgement T) :
    Option (FactTable × List CardRetype × Judgement T × Option (FactRow × FactRow)) :=
  match j.inHand with
  | none =>
    match j.paths, j.pages, answer with
    | _ :: paths, _, .settled => some (facts, asked, { j with paths }, none)
    | path :: paths, _, .reading order pageInWiki heavy =>
      some (facts, asked,
        { j with
          paths
          pages := j.pages ++ [gatherPage facts j.depth path order pageInWiki heavy] }, none)
    | [], _ :: pages, .failed => some (facts, asked, { j with pages }, none)
    | [], page :: pages, .decision d =>
      some (facts, asked,
        { j with
          pages
          inHand := some (page, memoryNow, inMarkerOrder d.verdicts, d.split)
          decided := [] }, none)
    | _, _, _ => none
  | some (page, clock, (marker, verdict) :: verdicts, split) =>
    let rest := { j with inHand := some (page, clock, verdicts, split) }
    match page.factAt marker with
    | none => some (facts, asked, rest, none)
    | some row =>
      if touchesADecidedFact page verdict row j.decided then some (facts, asked, rest, none)
      else
        match weigh chrono lib j.depth clock page row verdict with
        | .merge winner loser => some (facts, asked, rest, some (winner, loser))
        | act =>
          let out := carryOut chrono facts asked now act
          some (out.1, out.2.1, { rest with decided := j.decided ++ out.2.2.toList }, none)
  | some (page, _, [], split) =>
    match split, answer with
    | some split, .split dir moved region =>
      some (applyPageSplit facts page split dir moved region now, asked, { j with inHand := none },
        none)
    | none, _ => some (facts, asked, { j with inHand := none }, none)
    | _, _ => none

/-- What the judge notes when a merge is over. -/
def Judgement.noted (j : Judgement T) (loser : FactId) (merged : Bool) : Judgement T :=
  if merged then { j with decided := j.decided ++ [loser] } else j

/-- The cases of a sweep, once the wikis are read. -/
def Sweep.toCases (s : Sweep T) : List (FactRow × List FactRow) :=
  match s.kind with
  | .completion => completionCases chrono lib policy s.since
      ((s.byWiki.insertionSort fun a b => a.1 ≤ b.1).map Prod.snd)
  | .contradiction => (s.gathered.insertionSort fun a b =>
      b.1.updatedAt ≤ a.1.updatedAt).take policy.contradictionSweepCap

/-- A sweep that has read one wiki more. -/
def Sweep.read (facts : FactTable) (s : Sweep T) (wiki : Str) : Sweep T :=
  let rows := findActiveInWiki facts wiki
  match s.kind with
  | .completion => { s with byWiki := s.byWiki ++ [(wiki, rows)] }
  | .contradiction =>
    { s with
      gathered := s.gathered ++
        (findRecentlyContradicted chrono facts wiki s.since).filterMap fun seed =>
          let candidates := satellites chrono lib facts rows s.now seed
          if candidates.isEmpty || allOnOnePageTheReadingWillOpen seed candidates s.willRead
          then none else some (seed, candidates) }

/-- The end, the reason, the successor and the instant of one closure. -/
def Sweep.closure (s : Sweep T) (memoryNow : T) (seed : FactRow) (item : CompletionItem) :
    Str × Str × Option FactId × T :=
  let named := item.validTo.bind lib.canonicalBound
  match s.kind with
  | .completion =>
    (named.getD (factBegan lib seed), item.decayReason, some seed.factId,
      (instantOf chrono (factBegan lib seed)).getD memoryNow)
  | .contradiction =>
    let past := seed.validTo.filter fun stop =>
      (instantOf chrono stop).any fun t => decide (t ≤ memoryNow)
    (named.getD ((past.orElse fun _ => seed.supersededAt).getD
        (boundFromInstant chrono memoryNow)),
      "contradicted".toList, seed.supersededBy, memoryNow)

/-- The candidates of a case that this sweep has not closed; only the completion sweep looks. -/
def Sweep.opened (s : Sweep T) (candidates : List FactRow) : List FactRow :=
  match s.kind with
  | .completion => candidates.filter fun c => !s.closedThisCycle.contains c.factId
  | .contradiction => candidates

/-- The next step of a sweep. -/
def Sweep.next (facts : FactTable) (now : Str) (memoryNow : T) (answer : Answer) (s : Sweep T) :
    Option (FactTable × Sweep T) :=
  match s.closing, s.cases with
  | some (seed, candidates, clock, item :: items, applied), _ =>
    let rest := fun applied => { s with closing := some (seed, candidates, clock, items, applied) }
    match candidates.find? fun c => c.factId.val = item.target with
    | none => some (facts, rest applied)
    | some target =>
      if applied.contains target.factId then some (facts, rest applied)
      else
        let c := s.closure chrono lib clock seed item
        match closeValidity chrono facts target.factId c.1 c.2.1 c.2.2.1 c.2.2.2 now with
        | (none, facts) => some (facts, rest applied)
        | (some _, facts) => some (facts, rest (applied ++ [target.factId]))
  | some (_, _, _, [], applied), _ =>
    some (facts, { s with closing := none, closedThisCycle := s.closedThisCycle ++ applied })
  | none, none =>
    match s.scopes with
    | [] => some (facts, { s with cases := some (s.toCases chrono lib policy) })
    | wiki :: scopes =>
      some (facts, { s.read chrono lib facts wiki with scopes })
  | none, some [] => none
  | none, some ((seed, candidates) :: rest) =>
    let opened := s.opened candidates
    if opened.isEmpty || (decide (s.kind = .completion) &&
        allOnOnePageTheReadingWillOpen seed opened s.willRead) then
      some (facts, { s with cases := some rest })
    else
      match answer with
      | .items items =>
        some (facts,
          { s with cases := some rest, closing := some (seed, opened, memoryNow, items, []) })
      | .settled | .failed => some (facts, { s with cases := some rest })
      | _ => none

/-- The merge of a pair that passed the fences. -/
def Merging.ofPair (memoryNow : T) (pair : FactRow × FactRow) : Merging T where
  winner := pair.1.factId
  loser := pair.2.factId
  compared := some pair
  whenUnstated := memoryNow

/-- The next statement of a merge a pass is at, or what the pass does when it is over. -/
def Merging.within (facts : FactTable) (now : Str) (m : Merging T) :
    Option (FactTable × Option (Merging T) × Option Bool) :=
  match m.stage with
  | .over merged => some (facts, none, some merged)
  | _ => (m.next chrono staged facts now).map fun out =>
      (out.1, some { m with stage := out.2 }, none)

/-- The next step of whoever is at work. -/
def Actor.next (facts : FactTable) (asked : List CardRetype) (now : Str) (memoryNow : T)
    (answer : Answer) : Actor T → Option (FactTable × List CardRetype × Actor T)
  | .access c phase => (c.next facts now phase).map fun out => (out.1, asked, .access c out.2)
  | .apply m => (m.next chrono staged facts now).map fun out =>
      (out.1, asked, .apply { m with stage := out.2 })
  | .revisor r (some m) => (m.within chrono staged facts now).map fun out =>
      (out.1, asked, .revisor (out.2.2.elim r (r.noted m.loser)) out.2.1)
  | .revisor r none => (r.next lib policy facts answer).map fun out =>
      (facts, asked, .revisor out.1 (out.2.map (Merging.ofPair memoryNow)))
  | .judge j (some m) => (m.within chrono staged facts now).map fun out =>
      (out.1, asked, .judge (out.2.2.elim j (j.noted m.loser)) out.2.1)
  | .judge j none => (j.next chrono lib facts asked now memoryNow answer).map fun out =>
      (out.1, out.2.1, .judge out.2.2.1 (out.2.2.2.map (Merging.ofPair memoryNow)))
  | .sweep s => (s.next chrono lib policy facts now memoryNow answer).map fun out =>
      (out.1, asked, .sweep out.2)

/-- What begins. -/
inductive Start (T : Type*) where
  | access (c : AccessCall)
  | apply (context : DedupContext) (memoryNow : T)
  | revisor (scopes : List Str)
  | judge (depth : JudgementDepth) (paths : List Str)
  | sweep (kind : SweepKind) (scopes willRead : List Str) (since now : T)

/-- Whoever begins; a proposal whose ids do not parse is not applied. -/
def Start.actor : Start T → Option (Actor T)
  | .access c => some (.access c .start)
  | .apply context memoryNow =>
    match FactId.parse context.loserFactId, FactId.parse context.winnerFactId with
    | .ok loser, .ok winner => some (.apply { winner, loser, compared := none
                                              whenUnstated := memoryNow })
    | _, _ => none
  | .revisor scopes => some (.revisor { scopes } none)
  | .judge depth paths => some (.judge { depth, paths } none)
  | .sweep kind scopes willRead since now => some (.sweep { kind, scopes, willRead, since, now })

/-- The fact index, the questions put to card owners, and whoever is at work. -/
structure Night (T : Type*) where
  facts : FactTable
  asked : List CardRetype := []
  actors : ℕ → Option (Actor T) := fun _ => none

/-- Somebody begins, goes on, or is stopped. -/
inductive Event (T : Type*) where
  | start (i : ℕ) (s : Start T)
  | next (i : ℕ) (now : Str) (memoryNow : T) (answer : Answer)
  | stop (i : ℕ)

/-- One event. -/
def step (b : Night T) : Event T → Option (Night T)
  | .start i s =>
    match b.actors i with
    | some _ => none
    | none => s.actor.map fun a => { b with actors := Function.update b.actors i (some a) }
  | .next i now memoryNow answer =>
    (b.actors i).bind fun a =>
      (a.next chrono lib policy staged b.facts b.asked now memoryNow answer).map fun out =>
        { facts := out.1, asked := out.2.1
          actors := Function.update b.actors i (some out.2.2) }
  | .stop i => some { b with actors := Function.update b.actors i none }

/-! ### What a step does to the fact index -/

variable {chrono lib policy staged} {facts facts' : FactTable} {asked asked' : List CardRetype}
  {now : Str} {memoryNow : T} {answer : Answer}

/-- The fact index once the loser of a merge is retired. -/
def retire (facts : FactTable) (loser winner : FactId) (closedAt now : Str) : FactTable :=
  facts.update (fun r => r.factId == loser && r.supersededAt.isNone && r.deletedAt.isNone)
    (FactRow.superseded winner closedAt now) (FactRow.factId_superseded winner closedAt now)

/-- A statement of a merge reads, retires the loser, or writes the references of the winner. -/
lemma Merging.next_cases {m : Merging T} {stage : Stage}
    (h : m.next chrono staged facts now = some (facts', stage)) :
    facts' = facts ∨
    (∃ w l closedAt, m.stage = .retiring w l (.closing closedAt) ∧
      facts' = retire facts m.loser m.winner closedAt now) ∨
    ∃ refs, m.stage = .carrying refs ∧ facts' = setAuthoredRefs facts m.winner refs now := by
  unfold next at h
  split at h
  · refine .inl ?_
    split_ifs at h
    · exact (Prod.mk.inj (Option.some.inj h)).1.symm
    · split at h <;> exact (Prod.mk.inj (Option.some.inj h)).1.symm
  · refine .inl ?_
    split at h <;> exact (Prod.mk.inj (Option.some.inj h)).1.symm
  · exact .inl (Prod.mk.inj (Option.some.inj h)).1.symm
  · exact .inl (Prod.mk.inj (Option.some.inj h)).1.symm
  · next w l phase _ _ hstage =>
    obtain ⟨⟨facts'', phase'⟩, hnext, hout⟩ := Option.map_eq_some_iff.mp h
    obtain ⟨rfl, -⟩ := Prod.mk.inj hout
    cases phase with
    | closing closedAt =>
      obtain ⟨rfl, -⟩ := Prod.mk.inj (Option.some.inj hnext)
      exact .inr (.inl ⟨w, l, closedAt, hstage, rfl⟩)
    | start =>
      simp only [Fences.next] at hnext
      refine .inl ?_
      split at hnext <;> exact (Prod.mk.inj (Option.some.inj hnext)).1.symm
    | unwritten | proposed _ => exact .inl (Prod.mk.inj (Option.some.inj hnext)).1.symm
    | found _ | returned _ => cases hnext
  · next refs hstage =>
    exact .inr (.inr ⟨refs, hstage, (Prod.mk.inj (Option.some.inj h)).1.symm⟩)
  · cases h

/-- What a pass does at a merge it is at. -/
lemma Merging.within_cases {m : Merging T} {m' : Option (Merging T)} {merged : Option Bool}
    (h : m.within chrono staged facts now = some (facts', m', merged)) :
    (facts' = facts ∧ m' = none ∧ ∃ done, m.stage = .over done ∧ merged = some done) ∨
    ∃ stage, m.next chrono staged facts now = some (facts', stage) ∧
      m' = some { m with stage } ∧ merged = none := by
  unfold within at h
  split at h
  · next done hstage =>
    obtain ⟨rfl, hrest⟩ := Prod.mk.inj (Option.some.inj h)
    obtain ⟨rfl, rfl⟩ := Prod.mk.inj hrest
    exact .inl ⟨rfl, rfl, done, hstage, rfl⟩
  · obtain ⟨⟨facts'', stage⟩, hnext, hout⟩ := Option.map_eq_some_iff.mp h
    obtain ⟨rfl, hrest⟩ := Prod.mk.inj hout
    obtain ⟨rfl, rfl⟩ := Prod.mk.inj hrest
    exact .inr ⟨stage, hnext, rfl, rfl⟩

omit [LinearOrder S] in
/-- A step of the judge leaves the fact index, carries out a verdict, or splits a page. -/
lemma Judgement.next_cases {j j' : Judgement T} {pair : Option (FactRow × FactRow)}
    (h : j.next chrono lib facts asked now memoryNow answer = some (facts', asked', j', pair)) :
    facts' = facts ∨
    (∃ page clock marker verdict verdicts split row,
      j.inHand = some (page, clock, (marker, verdict) :: verdicts, split) ∧
      page.factAt marker = some row ∧ facts' = (carryOut chrono facts asked now
        (weigh chrono lib j.depth clock page row verdict)).1) ∨
    ∃ page clock split dir moved region, j.inHand = some (page, clock, [], some split) ∧
      answer = .split dir moved region ∧
      facts' = applyPageSplit facts page split dir moved region now := by
  unfold next at h
  split at h
  · refine .inl ?_
    split at h <;> first | exact (Prod.mk.inj (Option.some.inj h)).1.symm | cases h
  · next page clock marker verdict verdicts split hhand =>
    dsimp only at h
    split at h
    · exact .inl (Prod.mk.inj (Option.some.inj h)).1.symm
    · next row hrow =>
      split_ifs at h
      · exact .inl (Prod.mk.inj (Option.some.inj h)).1.symm
      · split at h
        · exact .inl (Prod.mk.inj (Option.some.inj h)).1.symm
        · exact .inr (.inl ⟨page, clock, marker, verdict, verdicts, split, row, hhand, hrow,
            (Prod.mk.inj (Option.some.inj h)).1.symm⟩)
  · next page clock split hhand =>
    split at h
    · next split' dir moved region =>
      exact .inr (.inr ⟨page, clock, split', dir, moved, region, hhand, rfl,
        (Prod.mk.inj (Option.some.inj h)).1.symm⟩)
    · exact .inl (Prod.mk.inj (Option.some.inj h)).1.symm
    · cases h

omit [LinearOrder T] in
/-- A pair the revisor merges was nominated. -/
lemma Revision.next_pair {r r' : Revision} {pair : FactRow × FactRow}
    (h : r.next lib policy facts answer = some (r', some pair)) :
    pair ∈ r.pairs ∧ nominated lib policy pair.1 pair.2 = true := by
  unfold next at h
  split at h
  · cases h
  · split at h <;> cases h
  next newer older rest _ hpairs =>
  split at h
  · cases h
  split at h
  · cases h
  next hpass =>
  simp only [Bool.or_eq_true, Bool.not_eq_true', not_or, Bool.not_eq_false] at hpass
  split at h
  · cases h
  · split at h <;> cases h
  · split at h <;> cases h
  · split at h
    · cases h
    · obtain ⟨-, hpair⟩ := Prod.mk.inj (Option.some.inj h)
      obtain rfl := Option.some.inj hpair
      rw [hpairs]
      exact ⟨List.mem_cons_self, hpass.2⟩
  · cases h

omit [LinearOrder S] in
/-- A pair the judge merges is what a verdict on the page in hand comes to. -/
lemma Judgement.next_pair {j j' : Judgement T} {pair : FactRow × FactRow}
    (h : j.next chrono lib facts asked now memoryNow answer =
      some (facts', asked', j', some pair)) :
    ∃ page clock marker verdict verdicts split row,
      j.inHand = some (page, clock, (marker, verdict) :: verdicts, split) ∧ row ∈ page.facts ∧
        weigh chrono lib j.depth clock page row verdict = .merge pair.1 pair.2 := by
  unfold next at h
  split at h
  · split at h <;> cases h
  · next page clock marker verdict verdicts split hhand =>
    dsimp only at h
    split at h
    · cases h
    next row hrow =>
    split at h
    · cases h
    split at h
    · next winner loser hmerge =>
      simp only [Option.some.injEq, Prod.mk.injEq] at h
      obtain ⟨-, -, -, rfl⟩ := h
      exact ⟨page, clock, marker, verdict, verdicts, split, row, hhand,
        JudgedPage.mem_of_factAt hrow, hmerge⟩
    · cases h
  · split at h <;> cases h

/-- A step of a sweep leaves the fact index, or closes a candidate. -/
lemma Sweep.next_cases {s s' : Sweep T}
    (h : s.next chrono lib policy facts now memoryNow answer = some (facts', s')) :
    facts' = facts ∨
    ∃ seed candidates clock item items applied target,
      s.closing = some (seed, candidates, clock, item :: items, applied) ∧
      target ∈ candidates ∧ target.factId.val = item.target ∧
      facts' = (closeValidity chrono facts target.factId (s.closure chrono lib clock seed item).1
        (s.closure chrono lib clock seed item).2.1 (s.closure chrono lib clock seed item).2.2.1
        (s.closure chrono lib clock seed item).2.2.2 now).2 := by
  unfold next at h
  split at h
  · next seed candidates clock item items applied hclosing =>
    dsimp only at h
    split at h
    · exact .inl (Prod.mk.inj (Option.some.inj h)).1.symm
    · next target htarget =>
      split_ifs at h
      · exact .inl (Prod.mk.inj (Option.some.inj h)).1.symm
      · refine .inr ⟨seed, candidates, clock, item, items, applied, target, hclosing,
          List.mem_of_find?_eq_some htarget, by simpa using List.find?_some htarget, ?_⟩
        split at h
        all_goals
          next heq =>
          rw [heq]
          exact (Prod.mk.inj (Option.some.inj h)).1.symm
  · exact .inl (Prod.mk.inj (Option.some.inj h)).1.symm
  · split at h <;> exact .inl (Prod.mk.inj (Option.some.inj h)).1.symm
  · cases h
  · refine .inl ?_
    dsimp only at h
    split_ifs at h
    · exact (Prod.mk.inj (Option.some.inj h)).1.symm
    · split at h <;> first | exact (Prod.mk.inj (Option.some.inj h)).1.symm | cases h

/-- A statement of a call reads the row, or writes it. -/
lemma AccessCall.next_cases {c : AccessCall} {phase phase' : Fences.Phase}
    (h : c.next facts now phase = some (facts', phase')) :
    facts' = facts ∨ ∃ row, phase = .found row ∧
      facts' = updateActive facts c.factId (c.write row now) (c.factId_write row now) := by
  unfold next at h
  split at h
  · split at h <;> exact .inl (Prod.mk.inj (Option.some.inj h)).1.symm
  · next row => exact .inr ⟨row, rfl, (Prod.mk.inj (Option.some.inj h)).1.symm⟩
  · cases h

/-- A closure leaves the fact index, or rewrites its fact. -/
lemma closeValidity_snd (chrono : Chrono T) (facts : FactTable) (factId : FactId) (validTo reason : Str)
    (successor : Option FactId) (when : T) (now : Str) :
    (closeValidity chrono facts factId validTo reason successor when now).2 = facts ∨
      ∃ stop, (closeValidity chrono facts factId validTo reason successor when now).2 =
        updateActive facts factId (FactRow.closed stop reason successor now)
          (FactRow.factId_closed stop reason successor now) := by
  unfold closeValidity
  split
  · exact .inl rfl
  · exact .inr ⟨_, rfl⟩

/-- An act leaves the fact index, or rewrites the fact it reaches, which stays as retired as it
was. -/
lemma carryOut_fst (chrono : Chrono T) (facts : FactTable) (asked : List CardRetype) (now : Str)
    (act : Act T) :
    (carryOut chrono facts asked now act).1 = facts ∨
    ∃ (row : FactRow) (set : FactRow → FactRow) (hset : ∀ r, (set r).factId = r.factId),
      act.reaches = some row ∧ (∀ r, (set r).supersededAt = r.supersededAt) ∧
      (carryOut chrono facts asked now act).1 = updateActive facts row.factId set hset := by
  cases act with
  | kept | refused _ | merge _ _ => exact .inl rfl
  | ask row ends =>
    simp only [carryOut]
    split_ifs <;> exact .inl rfl
  | endAt row stop =>
    have hset : (carryOut chrono facts asked now (.endAt row stop)).1 =
        (setValidity chrono facts row.factId none (some stop) now).2 := by
      simp only [carryOut]
      split <;> next heq => rw [heq]
    rw [hset]
    unfold setValidity
    split
    · exact .inl rfl
    · dsimp only
      split_ifs
      · exact .inl rfl
      · exact .inr ⟨row, FactRow.edited _ _ now, FactRow.factId_edited _ _ now, rfl,
          fun _ => rfl, rfl⟩
  | close row stop reason successor when =>
    have hset : (carryOut chrono facts asked now (.close row stop reason successor when)).1 =
        (closeValidity chrono facts row.factId stop reason (some successor.factId) when now).2 := by
      simp only [carryOut]
      split <;> next heq => rw [heq]
    rw [hset]
    obtain hsame | ⟨closedAt, hclosed⟩ := closeValidity_snd chrono facts row.factId stop reason
      (some successor.factId) when now
    · exact .inl hsame
    · exact .inr ⟨row, FactRow.closed closedAt reason (some successor.factId) now,
        FactRow.factId_closed _ _ _ now, rfl, fun _ => rfl, hclosed⟩
  | retype row ends saidAt =>
    have hset : (carryOut chrono facts asked now (.retype row ends saidAt)).1 =
        (setFactType chrono facts row.factId "state".toList ends saidAt now).2 := by
      simp only [carryOut]
      split <;> next heq => rw [heq]
    rw [hset]
    unfold setFactType
    split
    · exact .inl rfl
    · exact .inr ⟨row, FactRow.retyped _ _ now, FactRow.factId_retyped _ _ now, rfl,
        fun _ => rfl, rfl⟩

/-- What every move of a fact a split names keeps, the split keeps. -/
lemma applyPageSplit_induct {P : FactTable → Prop} {page : JudgedPage} {split : LlmPageSplit}
    {dir : Str} {moved : List FactId} {region : FactId → Option ℤ × Option ℤ} (h : P facts)
    (hmove : ∀ {facts : FactTable} {id : FactId} {path : Str},
      (∃ moving, factsThatMove page split = some moving ∧ ∃ row ∈ moving, row.factId = id) →
        P facts → P (moveRegion facts id path (region id) now)) :
    P (applyPageSplit facts page split dir moved region now) := by
  unfold applyPageSplit
  split
  · exact h
  split_ifs
  · exact h
  split
  · exact h
  next moving hmoving =>
  split
  · exact h
  split_ifs with hstands
  · clear hstands
    induction moved generalizing facts with
    | nil => exact h
    | cons id moved ih =>
      rw [List.foldl_cons]
      refine ih ?_
      split_ifs with hin
      · obtain ⟨row, hrow, hid⟩ := List.any_eq_true.mp hin
        exact hmove ⟨moving, hmoving, row, hrow, by simpa using hid⟩ h
      · exact h
  · exact h

/-- What a step may do to the fact index. -/
inductive Change (chrono : Chrono T) (lib : Library T S) (facts : FactTable)
    (asked : List CardRetype) (now : Str) (answer : Answer) (a : Actor T) : FactTable → Prop
  | nothing : Change chrono lib facts asked now answer a facts
  | access {c : AccessCall} {row : FactRow} : a = .access c (.found row) →
      Change chrono lib facts asked now answer a
        (updateActive facts c.factId (c.write row now) (c.factId_write row now))
  | retired {m : Merging T} {w l : FactRow} {closedAt : Str} : a.merging = some m →
      m.stage = .retiring w l (.closing closedAt) →
      Change chrono lib facts asked now answer a (retire facts m.loser m.winner closedAt now)
  | carried {m : Merging T} {refs : List Str} : a.merging = some m → m.stage = .carrying refs →
      Change chrono lib facts asked now answer a (setAuthoredRefs facts m.winner refs now)
  | judged {j : Judgement T} {page : JudgedPage} {clock : T} {marker : ℕ}
      {verdict : LlmPageVerdict} {verdicts : List (ℕ × LlmPageVerdict)}
      {split : Option LlmPageSplit} {row : FactRow} : a = .judge j none →
      j.inHand = some (page, clock, (marker, verdict) :: verdicts, split) →
      page.factAt marker = some row →
      Change chrono lib facts asked now answer a
        (carryOut chrono facts asked now (weigh chrono lib j.depth clock page row verdict)).1
  | split {j : Judgement T} {page : JudgedPage} {clock : T} {split : LlmPageSplit} {dir : Str}
      {moved : List FactId} {region : FactId → Option ℤ × Option ℤ} : a = .judge j none →
      j.inHand = some (page, clock, [], some split) → answer = .split dir moved region →
      Change chrono lib facts asked now answer a
        (applyPageSplit facts page split dir moved region now)
  | closed {s : Sweep T} {seed target : FactRow} {candidates : List FactRow} {clock : T}
      {item : CompletionItem} {items : List CompletionItem} {applied : List FactId} :
      a = .sweep s → s.closing = some (seed, candidates, clock, item :: items, applied) →
      target ∈ candidates → target.factId.val = item.target →
      Change chrono lib facts asked now answer a
        (closeValidity chrono facts target.factId (s.closure chrono lib clock seed item).1
          (s.closure chrono lib clock seed item).2.1 (s.closure chrono lib clock seed item).2.2.1
          (s.closure chrono lib clock seed item).2.2.2 now).2

omit [LinearOrder S] in
/-- A statement of a merge is one of these changes, whoever is at the merge. -/
lemma Merging.change {m : Merging T} {stage : Stage} {a : Actor T} (ha : a.merging = some m)
    (h : m.next chrono staged facts now = some (facts', stage)) :
    Change chrono lib facts asked now answer a facts' := by
  obtain rfl | ⟨w, l, closedAt, hstage, rfl⟩ | ⟨refs, hstage, rfl⟩ := m.next_cases h
  · exact .nothing
  · exact .retired ha hstage
  · exact .carried ha hstage

/-- What whoever is at work does to the fact index. -/
lemma Actor.next_change {a a' : Actor T}
    (h : a.next chrono lib policy staged facts asked now memoryNow answer =
      some (facts', asked', a')) :
    Change chrono lib facts asked now answer a facts' := by
  unfold next at h
  split at h
  · obtain ⟨⟨facts'', phase⟩, hnext, hout⟩ := Option.map_eq_some_iff.mp h
    obtain ⟨rfl, -⟩ := Prod.mk.inj hout
    obtain rfl | ⟨row, rfl, rfl⟩ := AccessCall.next_cases hnext
    · exact .nothing
    · exact .access rfl
  · obtain ⟨⟨facts'', stage⟩, hnext, hout⟩ := Option.map_eq_some_iff.mp h
    obtain ⟨rfl, -⟩ := Prod.mk.inj hout
    exact Merging.change rfl hnext
  · obtain ⟨⟨facts'', m', merged⟩, hnext, hout⟩ := Option.map_eq_some_iff.mp h
    obtain ⟨rfl, -⟩ := Prod.mk.inj hout
    obtain ⟨rfl, -⟩ | ⟨stage, hstage, -⟩ := Merging.within_cases hnext
    · exact .nothing
    · exact Merging.change rfl hstage
  · obtain ⟨out, -, hout⟩ := Option.map_eq_some_iff.mp h
    obtain ⟨rfl, -⟩ := Prod.mk.inj hout
    exact .nothing
  · obtain ⟨⟨facts'', m', merged⟩, hnext, hout⟩ := Option.map_eq_some_iff.mp h
    obtain ⟨rfl, -⟩ := Prod.mk.inj hout
    obtain ⟨rfl, -⟩ | ⟨stage, hstage, -⟩ := Merging.within_cases hnext
    · exact .nothing
    · exact Merging.change rfl hstage
  · obtain ⟨⟨facts'', asked'', j', pair⟩, hnext, hout⟩ := Option.map_eq_some_iff.mp h
    obtain ⟨rfl, -⟩ := Prod.mk.inj hout
    obtain rfl | ⟨page, clock, marker, verdict, verdicts, split, row, hhand, hrow, rfl⟩ |
      ⟨page, clock, split, dir, moved, region, hhand, hanswer, rfl⟩ := Judgement.next_cases hnext
    · exact .nothing
    · exact .judged rfl hhand hrow
    · exact .split rfl hhand hanswer
  · obtain ⟨⟨facts'', s'⟩, hnext, hout⟩ := Option.map_eq_some_iff.mp h
    obtain ⟨rfl, -⟩ := Prod.mk.inj hout
    obtain rfl | ⟨seed, candidates, clock, item, items, applied, target, hclosing, htarget, hitem,
      rfl⟩ := Sweep.next_cases hnext
    · exact .nothing
    · exact .closed rfl hclosing htarget hitem

/-- One event: somebody begins, goes on, or is stopped. -/
lemma step_cases {b b' : Night T} {e : Event T}
    (h : step chrono lib policy staged b e = some b') :
    (∃ i s a, e = .start i s ∧ s.actor = some a ∧
      b' = { b with actors := Function.update b.actors i (some a) }) ∨
    (∃ i now memoryNow answer a facts' asked' a', e = .next i now memoryNow answer ∧
      b.actors i = some a ∧
      a.next chrono lib policy staged b.facts b.asked now memoryNow answer =
        some (facts', asked', a') ∧
      b' = { facts := facts', asked := asked',
             actors := Function.update b.actors i (some a') }) ∨
    ∃ i, e = .stop i ∧ b' = { b with actors := Function.update b.actors i none } := by
  cases e with
  | start i s =>
    simp only [step] at h
    split at h
    · cases h
    · obtain ⟨a, ha, rfl⟩ := Option.map_eq_some_iff.mp h
      exact .inl ⟨i, s, a, rfl, ha, rfl⟩
  | next i now memoryNow answer =>
    obtain ⟨a, ha, h⟩ := Option.bind_eq_some_iff.mp h
    obtain ⟨⟨facts', asked', a'⟩, hnext, rfl⟩ := Option.map_eq_some_iff.mp h
    exact .inr (.inl ⟨i, now, memoryNow, answer, a, facts', asked', a', rfl, ha, hnext, rfl⟩)
  | stop i => exact .inr (.inr ⟨i, rfl, (Option.some.inj h).symm⟩)

end Steps

/-! ## A wiki with two facts -/

/-- One fact was made on the tenth of June, the others on the first; all are alike. -/
def sampleLibrary : Library ℤ ℕ where
  createdAt factId :=
    if factId.val.getLast? = some 'c' then "2026-06-10T10:00:00Z".toList
    else "2026-06-01T00:00:00Z".toList
  jaccard _ _ := 1
  cosine _ _ := 0
  apart _ _ := false
  canonicalBound := some
  endOfDay _ := []
  orphanedValues _ _ := []

/-- Pairs that are alike are asked about. -/
def samplePolicy : RemPolicy ℕ where
  revisorCap := 9
  revisorExaminedCap := 9
  revisorJaccardMin := 1
  revisorJaccardMax := 2
  revisorCosineMin := 1
  completionSweepCap := 9
  contradictionSweepCap := 9

/-- Nobody knows of a successor that is not a fact. -/
def nothingStaged : FactId → Option Str := fun _ => none

/-- A fact about Alice, told to Bob. -/
def olderFact : NewFact :=
  { halfPast with
    allowIds := [.user "bob".toList]
    validFrom := none }

/-- The same, written later. -/
def newerFact : NewFact :=
  { olderFact with factId := ⟨"018f1234-5678-7abc-9def-0123456789ac".toList, isFactId_ac⟩ }

/-- A wiki with a list of facts. -/
def quietNight (facts : List NewFact) : Night ℤ where
  facts := facts.foldl (fun table fact => insertIfAbsent table fact []) (Sql.Table.empty _)

/-- The same actor goes on a few times. -/
def goesOn (i n : ℕ) : List (Event ℤ) := List.replicate n (.next i [] 0 .nothing)

end Rem

end Mwe
