import MweCore.Rem.Night

/-!
# Whom a merge tells

A merge retires one fact for another that says the same.  Nobody is to learn anything by it, nor to
lose anything: who reads the one reads the other.  The revisor and the judge compare the reader
sets of the two rows they read; the statement that retires the loser comes later, after the model
has answered, and does not look at the lists again.  A pending proposal names two ids, and nothing
compares their readers at all.

`merges_tell_nobody_iff` says for which writes that is harmless.
-/

namespace Mwe

namespace Rem

open FactIndex

variable {T S : Type*} [LinearOrder T] [LinearOrder S]

/-! ## The law and its condition -/

/-- A fact was retired in favour of another. -/
def Retired (facts facts' : FactTable) (loser winner : FactId) : Prop :=
  ∃ l l', facts.get? loser = some l ∧ l.supersededAt = none ∧ facts'.get? loser = some l' ∧
    l'.supersededAt.isSome ∧ l'.supersededBy = some winner

/-- Whoever reads a fact that is retired reads the one it is retired for, and nobody else does. -/
def TellsNobody (facts facts' : FactTable) : Prop :=
  ∀ loser winner l w, Retired facts facts' loser winner → facts.get? loser = some l →
    facts.get? winner = some w → ∀ senderId senderGroups,
      rowReadableBy l.acl senderId senderGroups = rowReadableBy w.acl senderId senderGroups

/-- At a write that retires a fact: both have the access lists they had when they were compared,
or what is left of these without idle terms is the same. -/
def AudienceStands (b : Night T) : Event T → Prop
  | .next i _ _ _ => ∀ a m w l closedAt, b.actors i = some a → a.merging = some m →
      m.stage = .retiring w l (.closing closedAt) → ∀ loser winner,
        b.facts.get? m.loser = some loser → loser.isActive = true →
        b.facts.get? m.winner = some winner →
          (∃ pair, m.compared = some pair ∧ winner.acl = pair.1.acl ∧ loser.acl = pair.2.acl) ∨
            loser.acl.readership = winner.acl.readership
  | _ => True

/-- Whoever is at work merges what was told to the same people when it was compared. -/
def Gated (b : Night T) : Prop :=
  ∀ i a m pair, b.actors i = some a → a.merging = some m → m.compared = some pair →
    readerSetsDiffer pair.1 pair.2 = false

/-! ## What was compared -/

section Steps

variable {chrono : Chrono T} {lib : Library T S} {policy : RemPolicy S}
  {staged : FactId → Option Str} {b b' : Night T} {e : Event T}

/-- A merge somebody is at was begun with the pair it has, or with one that passed the fences. -/
lemma compared_of_next {a a' : Actor T} {facts facts' : FactTable}
    {asked asked' : List CardRetype} {now : Str} {memoryNow : T} {answer : Answer}
    (h : a.next chrono lib policy staged facts asked now memoryNow answer =
      some (facts', asked', a')) {m' : Merging T} (hm' : a'.merging = some m')
    {pair : FactRow × FactRow} (hpair : m'.compared = some pair) :
    (∃ m, a.merging = some m ∧ m.compared = some pair) ∨
      readerSetsDiffer pair.1 pair.2 = false := by
  have hwithin : ∀ {m : Merging T} {out : Option (Merging T)} {merged : Option Bool},
      m.within chrono staged facts now = some (facts', out, merged) → out = some m' →
        m.compared = some pair := by
    intro m out merged hwithin hout
    obtain ⟨-, rfl, -⟩ | ⟨stage, -, rfl, -⟩ := Merging.within_cases hwithin
    · cases hout
    · rw [← Option.some.inj hout] at hpair
      exact hpair
  unfold Actor.next at h
  split at h
  · obtain ⟨out, -, hout⟩ := Option.map_eq_some_iff.mp h
    obtain ⟨-, hrest⟩ := Prod.mk.inj hout
    obtain ⟨-, rfl⟩ := Prod.mk.inj hrest
    cases hm'
  · next m =>
    obtain ⟨out, -, hout⟩ := Option.map_eq_some_iff.mp h
    obtain ⟨-, hrest⟩ := Prod.mk.inj hout
    obtain ⟨-, rfl⟩ := Prod.mk.inj hrest
    obtain rfl := Option.some.inj hm'
    exact .inl ⟨m, rfl, hpair⟩
  · next r m =>
    obtain ⟨⟨facts'', out, merged⟩, hnext, hout⟩ := Option.map_eq_some_iff.mp h
    obtain ⟨rfl, hrest⟩ := Prod.mk.inj hout
    obtain ⟨-, rfl⟩ := Prod.mk.inj hrest
    exact .inl ⟨m, rfl, hwithin hnext hm'⟩
  · next r =>
    obtain ⟨⟨r', newPair⟩, hnext, hout⟩ := Option.map_eq_some_iff.mp h
    obtain ⟨-, hrest⟩ := Prod.mk.inj hout
    obtain ⟨-, rfl⟩ := Prod.mk.inj hrest
    obtain ⟨pair', rfl, rfl⟩ := Option.map_eq_some_iff.mp hm'
    obtain rfl := Option.some.inj hpair
    obtain ⟨-, hnominated⟩ := Revision.next_pair hnext
    simp only [nominated, Bool.and_eq_true, Bool.not_eq_true'] at hnominated
    exact .inr hnominated.1.2
  · next j m =>
    obtain ⟨⟨facts'', out, merged⟩, hnext, hout⟩ := Option.map_eq_some_iff.mp h
    obtain ⟨rfl, hrest⟩ := Prod.mk.inj hout
    obtain ⟨-, rfl⟩ := Prod.mk.inj hrest
    exact .inl ⟨m, rfl, hwithin hnext hm'⟩
  · next j =>
    obtain ⟨⟨facts'', asked'', j', newPair⟩, hnext, hout⟩ := Option.map_eq_some_iff.mp h
    obtain ⟨-, hrest⟩ := Prod.mk.inj hout
    obtain ⟨-, rfl⟩ := Prod.mk.inj hrest
    obtain ⟨pair', rfl, rfl⟩ := Option.map_eq_some_iff.mp hm'
    obtain rfl := Option.some.inj hpair
    obtain ⟨page, clock, marker, verdict, verdicts, split, row, -, hrow, hmerge⟩ :=
      Judgement.next_pair hnext
    exact .inr (readerSetsDiffer_of_weigh hrow hmerge)
  · obtain ⟨out, -, hout⟩ := Option.map_eq_some_iff.mp h
    obtain ⟨-, hrest⟩ := Prod.mk.inj hout
    obtain ⟨-, rfl⟩ := Prod.mk.inj hrest
    cases hm'

omit [LinearOrder T] in
/-- Nobody begins with a pair that was compared. -/
lemma compared_of_start {s : Start T} {a : Actor T} (h : s.actor = some a) {m : Merging T}
    (hm : a.merging = some m) : m.compared = none := by
  cases s with
  | access c | revisor scopes | judge depth paths | sweep kind scopes willRead since now =>
    obtain rfl := Option.some.inj h
    cases hm
  | apply context memoryNow =>
    simp only [Start.actor] at h
    split at h
    · obtain rfl := Option.some.inj h
      rw [← Option.some.inj hm]
    · cases h

/-- A step keeps every merge in flight gated. -/
lemma Gated.step (h : Rem.step chrono lib policy staged b e = some b') (hb : Gated b) :
    Gated b' := by
  intro j a' m' pair ha' hm' hpair
  obtain ⟨i, s, a, rfl, hs, rfl⟩ | ⟨i, now, memoryNow, answer, a, facts', asked', a'', rfl, ha,
    hnext, rfl⟩ | ⟨i, rfl, rfl⟩ := step_cases h
  · simp only [Function.update_apply] at ha'
    split_ifs at ha' with hij
    · obtain rfl := Option.some.inj ha'
      rw [compared_of_start hs hm'] at hpair
      cases hpair
    · exact hb j a' m' pair ha' hm' hpair
  · simp only [Function.update_apply] at ha'
    split_ifs at ha' with hij
    · obtain rfl := Option.some.inj ha'
      obtain ⟨m, hm, hcompared⟩ | hsame := compared_of_next hnext hm' hpair
      · exact hb i a m pair ha hm hcompared
      · exact hsame
    · exact hb j a' m' pair ha' hm' hpair
  · simp only [Function.update_apply] at ha'
    split_ifs at ha'
    exact hb j a' m' pair ha' hm' hpair

/-! ## What is retired -/

/-- When each fact was retired. -/
def marks (facts : FactTable) (id : FactId) : Option (Option Str) :=
  (facts.get? id).map FactRow.supersededAt

/-- An update that leaves the mark of a row leaves all of them. -/
lemma marks_update {facts : FactTable} {sel : FactRow → Bool} {set : FactRow → FactRow}
    {hset : ∀ r, (set r).factId = r.factId} (h : ∀ r, (set r).supersededAt = r.supersededAt) :
    marks (facts.update sel set hset) = marks facts := by
  funext id
  unfold marks
  rw [Sql.Table.get?_update, Option.map_map]
  congr 1
  funext r
  simp only [Function.comp_apply]
  split_ifs
  · exact h r
  · rfl

/-- Where the marks stay, nothing is retired. -/
lemma not_retired_of_marks {facts facts' : FactTable} (h : marks facts' = marks facts)
    (loser winner : FactId) : ¬ Retired facts facts' loser winner := by
  rintro ⟨l, l', hl, hstood, hl', hretired, -⟩
  have hmark := congrFun h loser
  rw [marks, marks, hl, hl', Option.map_some, Option.map_some, hstood] at hmark
  rw [Option.some.inj hmark] at hretired
  cases hretired

/-- The write of a merge retires its loser, if that still stands, and nothing else. -/
lemma retired_retire_iff {facts : FactTable} {loser winner : FactId} {closedAt now : Str}
    (l w : FactId) :
    Retired facts (retire facts loser winner closedAt now) l w ↔
      l = loser ∧ w = winner ∧ ∃ row, facts.get? loser = some row ∧ row.isActive = true := by
  constructor
  · rintro ⟨row, row', hrow, hstood, hrow', hretired, hby⟩
    rw [retire, Sql.Table.get?_update, hrow] at hrow'
    obtain ⟨-, rfl⟩ := Sql.Table.get?_eq_some_iff.mp hrow
    obtain rfl := Option.some.inj hrow'
    dsimp only at hretired hby
    split_ifs at hretired hby with hsel
    · simp only [Bool.and_eq_true, beq_iff_eq, Option.isNone_iff_eq_none] at hsel
      obtain ⟨⟨rfl, -⟩, hlive⟩ := hsel
      refine ⟨rfl, (Option.some.inj hby).symm, row, hrow, ?_⟩
      simp [FactRow.isActive, hstood, hlive]
    · rw [hstood] at hretired
      cases hretired
  · rintro ⟨rfl, rfl, row, hrow, hactive⟩
    obtain ⟨-, hid⟩ := Sql.Table.get?_eq_some_iff.mp hrow
    simp only [FactRow.isActive, Bool.and_eq_true, Option.isNone_iff_eq_none] at hactive
    refine ⟨row, row.superseded w closedAt now, hrow, hactive.1, ?_, rfl, rfl⟩
    rw [retire, Sql.Table.get?_update, hrow]
    simp [hid, hactive]

omit [LinearOrder S] in
/-- What a step retires, the write of a merge retires. -/
lemma Change.not_retired {facts facts' : FactTable} {asked : List CardRetype} {now : Str}
    {answer : Answer} {a : Actor T} (h : Change chrono lib facts asked now answer a facts')
    {loser winner : FactId} (hretired : Retired facts facts' loser winner) :
    ∃ m w l closedAt row, a.merging = some m ∧ m.stage = .retiring w l (.closing closedAt) ∧
      m.loser = loser ∧ m.winner = winner ∧ facts.get? loser = some row ∧ row.isActive = true := by
  cases h with
  | nothing => exact absurd hretired (not_retired_of_marks rfl loser winner)
  | @access c row _ =>
    have hkeeps : ∀ r, (c.write row now r).supersededAt = r.supersededAt := by
      intro r
      cases c <;> rfl
    exact absurd hretired (not_retired_of_marks (marks_update hkeeps) loser winner)
  | @retired m w l closedAt hm hstage =>
    obtain ⟨rfl, rfl, row, hrow, hactive⟩ := (retired_retire_iff loser winner).mp hretired
    exact ⟨m, w, l, closedAt, row, hm, hstage, rfl, rfl, hrow, hactive⟩
  | @carried m refs hm hstage =>
    have hmarks : marks (setAuthoredRefs facts m.winner refs now) = marks facts :=
      marks_update fun _ => rfl
    exact absurd hretired (not_retired_of_marks hmarks loser winner)
  | judged _ _ _ =>
    obtain hsame | ⟨row, set, hset, -, hkeeps, hwritten⟩ :=
      carryOut_fst chrono facts asked now (weigh chrono lib _ _ _ _ _)
    · rw [hsame] at hretired
      exact absurd hretired (not_retired_of_marks rfl loser winner)
    · rw [hwritten] at hretired
      exact absurd hretired (not_retired_of_marks (marks_update hkeeps) loser winner)
  | @split _ page _ split dir moved region _ _ _ =>
    have hmarks : marks (applyPageSplit facts page split dir moved region now) = marks facts := by
      refine @applyPageSplit_induct facts now (fun x => marks x = marks facts) _ _ _ _ _ rfl ?_
      intro facts' id path _ hfacts'
      have hmove : marks (moveRegion facts' id path (region id) now) = marks facts' :=
        marks_update fun _ => rfl
      exact hmove.trans hfacts'
    exact absurd hretired (not_retired_of_marks hmarks loser winner)
  | closed _ _ _ _ =>
    obtain hsame | ⟨stop, hwritten⟩ := closeValidity_snd chrono facts _ _ _ _ _ now
    · rw [hsame] at hretired
      exact absurd hretired (not_retired_of_marks rfl loser winner)
    · have hkeeps : ∀ (reason : Str) (successor : Option FactId) (r : FactRow),
          (r.closed stop reason successor now).supersededAt = r.supersededAt := fun _ _ _ => rfl
      rw [hwritten] at hretired
      exact absurd hretired (not_retired_of_marks (marks_update (hkeeps _ _)) loser winner)

/-- The next statement of a merge whose end is known retires the loser. -/
lemma facts_of_closing {a a' : Actor T} {m : Merging T} {w l : FactRow} {closedAt : Str}
    (hm : a.merging = some m) (hstage : m.stage = .retiring w l (.closing closedAt))
    {facts facts' : FactTable} {asked asked' : List CardRetype} {now : Str} {memoryNow : T}
    {answer : Answer}
    (h : a.next chrono lib policy staged facts asked now memoryNow answer =
      some (facts', asked', a')) :
    facts' = retire facts m.loser m.winner closedAt now := by
  have hnext : ∀ {out : FactTable × Stage}, m.next chrono staged facts now = some out →
      out.1 = retire facts m.loser m.winner closedAt now := by
    intro out hout
    rw [Merging.next, hstage] at hout
    obtain ⟨⟨facts'', phase⟩, hnext, rfl⟩ := Option.map_eq_some_iff.mp hout
    exact (Prod.mk.inj (Option.some.inj hnext)).1.symm
  have hwithin : ∀ {out : FactTable × Option (Merging T) × Option Bool},
      m.within chrono staged facts now = some out →
        out.1 = retire facts m.loser m.winner closedAt now := by
    rintro ⟨facts'', m', merged⟩ hout
    obtain ⟨-, -, done, hover, -⟩ | ⟨stage, hstep, -, -⟩ := Merging.within_cases hout
    · rw [hstage] at hover
      cases hover
    · exact hnext hstep
  cases a with
  | access c phase => cases hm
  | sweep s => cases hm
  | apply m' =>
    obtain rfl := Option.some.inj hm
    obtain ⟨out, hout, heq⟩ := Option.map_eq_some_iff.mp h
    exact (Prod.mk.inj heq).1.symm.trans (hnext hout)
  | revisor r m' =>
    obtain rfl : m' = some m := hm
    obtain ⟨out, hout, heq⟩ := Option.map_eq_some_iff.mp h
    exact (Prod.mk.inj heq).1.symm.trans (hwithin hout)
  | judge j m' =>
    obtain rfl : m' = some m := hm
    obtain ⟨out, hout, heq⟩ := Option.map_eq_some_iff.mp h
    exact (Prod.mk.inj heq).1.symm.trans (hwithin hout)

/-! ## The exact condition -/

/-- A step tells nobody anything exactly when the audience of what it retires stands. -/
lemma tellsNobody_iff (h : step chrono lib policy staged b e = some b') (hb : Gated b) :
    TellsNobody b.facts b'.facts ↔ AudienceStands b e := by
  obtain ⟨i, s, a, rfl, hs, rfl⟩ | ⟨i, now, memoryNow, answer, a, facts', asked', a', rfl, ha,
    hnext, rfl⟩ | ⟨i, rfl, rfl⟩ := step_cases h
  · refine iff_of_true ?_ trivial
    intro loser winner l w hretired
    exact absurd hretired (not_retired_of_marks rfl loser winner)
  · constructor
    · intro htells a₁ m w l closedAt ha₁ hm hstage loser winner hloser hactive hwinner
      obtain rfl := Option.some.inj (ha.symm.trans ha₁)
      refine .inr ((RegionAcl.readers_eq_iff _ _).mp ?_)
      refine htells m.loser m.winner loser winner ?_ hloser hwinner
      dsimp only
      rw [facts_of_closing hm hstage hnext]
      exact (retired_retire_iff _ _).mpr ⟨rfl, rfl, loser, hloser, hactive⟩
    · intro hstands loser winner l w hretired hl hw
      obtain ⟨m, wr, lr, closedAt, row, hm, hstage, rfl, rfl, hrow, hactive⟩ :=
        (Actor.next_change hnext).not_retired hretired
      obtain rfl := Option.some.inj (hrow.symm.trans hl)
      obtain ⟨pair, hpair, hwacl, hlacl⟩ | hsame :=
        hstands a m wr lr closedAt ha hm hstage row w hrow hactive hw
      · have hgate : readerSetsDiffer pair.1 pair.2 = false := hb i a m pair ha hm hpair
        have hsets : pair.1.acl.readerSet = pair.2.acl.readerSet := by
          simpa [readerSetsDiffer] using hgate
        rw [hlacl, hwacl]
        exact (RegionAcl.readers_eq_iff _ _).mpr
          (RegionAcl.readership_eq_of_readerSet_eq hsets.symm)
      · exact (RegionAcl.readers_eq_iff _ _).mpr hsame
  · refine iff_of_true ?_ trivial
    intro loser winner l w hretired
    exact absurd hretired (not_retired_of_marks rfl loser winner)

/-- No merge of a run that nobody was at work in before tells anybody anything exactly when, at
each write that retires a fact, its audience stands. -/
theorem merges_tell_nobody_iff {trace : List (Night T × Event T)}
    (hrun : Run (step chrono lib policy staged) b trace b') (hstart : ∀ i, b.actors i = none) :
    (∀ p ∈ trace, ∀ x, step chrono lib policy staged p.1 p.2 = some x →
        TellsNobody p.1.facts x.facts) ↔
      ∀ p ∈ trace, AudienceStands p.1 p.2 := by
  refine hrun.steps_iff (P := Gated) (R := fun x y => TellsNobody x.facts y.facts) ?_
    (fun hxy hx => hx.step hxy) (fun hxy hx => tellsNobody_iff hxy hx)
  intro i a m pair ha
  rw [hstart] at ha
  cases ha

end Steps

/-! ## A fact fenced while the model is asked -/

/-- Whether a write that retires a fact finds the same readership in both rows. -/
def audienceStands (b : Night ℤ) : Event ℤ → Bool
  | .next i _ _ _ =>
    match (b.actors i).bind Actor.merging with
    | some m =>
      match m.stage, b.facts.get? m.loser, b.facts.get? m.winner with
      | .retiring _ _ (.closing _), some loser, some winner =>
        decide (loser.acl.readership = winner.acl.readership)
      | _, _, _ => true
    | none => true
  | _ => true

lemma audienceStands_of_eq_true {b : Night ℤ} {e : Event ℤ} (h : audienceStands b e = true) :
    AudienceStands b e := by
  cases e with
  | start i s => trivial
  | stop i => trivial
  | next i now memoryNow answer =>
    intro a m w l closedAt ha hm hstage loser winner hloser _ hwinner
    rw [audienceStands, ha, Option.bind_some, hm] at h
    simp only [hstage, hloser, hwinner] at h
    exact .inr (of_decide_eq_true h)

/-- The revisor reads the wiki and is told that the two facts are one. -/
def asked : List (Event ℤ) :=
  [.start 0 (.revisor ["alice".toList]), .next 0 [] 0 .nothing, .next 0 [] 0 .yes]

/-- While the model is asked, the older fact is kept from Bob. -/
def fenced : List (Event ℤ) :=
  [.start 0 (.revisor ["alice".toList]), .next 0 [] 0 .nothing,
    .start 1 (.access (.restrictTo olderFact.factId [.user "bob".toList] []))] ++ goesOn 1 2 ++
    [.next 0 [] 0 .yes] ++ goesOn 0 4

theorem merges_tell_nobody_iff_asked :
    ∃ trace t, Run (step sampleChrono sampleLibrary samplePolicy nothingStaged)
        (quietNight [olderFact, newerFact]) trace t ∧
      (∀ p ∈ trace, ∀ x, step sampleChrono sampleLibrary samplePolicy nothingStaged p.1 p.2 =
        some x → TellsNobody p.1.facts x.facts) ∧
      (t.facts.get? olderFact.factId).any fun r => r.supersededBy = some newerFact.factId := by
  have hmerged : ((asked ++ goesOn 0 5).foldlM (fun b e => if audienceStands b e then
      step sampleChrono sampleLibrary samplePolicy nothingStaged b e else none)
        (quietNight [olderFact, newerFact])).any (fun t =>
          (t.facts.get? olderFact.factId).any fun r =>
            r.supersededBy = some newerFact.factId) = true := by
    decide +kernel
  obtain ⟨trace, t, hrun, hchecked, htest⟩ := Run.exists_of_any_checked hmerged
  refine ⟨trace, t, hrun, ?_, htest⟩
  rw [merges_tell_nobody_iff hrun fun _ => rfl]
  intro p hp
  exact audienceStands_of_eq_true (hchecked p hp)

/-- Whether a step retires the first fact for the second though Bob reads only one of the two. -/
def bobTold (b x : Night ℤ) : Bool :=
  match b.facts.get? olderFact.factId, b.facts.get? newerFact.factId,
    x.facts.get? olderFact.factId with
  | some l, some w, some l' =>
    l.supersededAt = none ∧ l'.supersededAt.isSome ∧
      l'.supersededBy = some newerFact.factId ∧
      rowReadableBy l.acl "bob".toList [] ≠ rowReadableBy w.acl "bob".toList []
  | _, _, _ => false

/-- What Bob was just kept from is retired for a copy that he reads. -/
theorem fenced_fact_merged :
    ∃ trace t, Run (step sampleChrono sampleLibrary samplePolicy nothingStaged)
        (quietNight [olderFact, newerFact]) trace t ∧
      ¬ ∀ p ∈ trace, ∀ x, step sampleChrono sampleLibrary samplePolicy nothingStaged p.1 p.2 =
        some x → TellsNobody p.1.facts x.facts := by
  have hmerged : (fenced.foldlM (step sampleChrono sampleLibrary samplePolicy nothingStaged)
      (quietNight [olderFact, newerFact])).any (fun b =>
        (step sampleChrono sampleLibrary samplePolicy nothingStaged b (.next 0 [] 0 .nothing)).any
          (bobTold b)) = true := by
    decide +kernel
  obtain ⟨trace, t, hrun, htest⟩ := Run.exists_of_any hmerged
  obtain ⟨x, hx, htest⟩ := (Option.any_eq_true _ _).mp htest
  refine ⟨_, x, hrun.tail hx, fun htells => ?_⟩
  unfold bobTold at htest
  split at htest
  · next l w l' hl hw hl' =>
    obtain ⟨hstood, hretired, hby, hdiffer⟩ := of_decide_eq_true htest
    refine hdiffer (htells (t, .next 0 [] 0 .nothing) (by simp) x hx olderFact.factId
      newerFact.factId l w ⟨l, l', hl, hstood, hl', hretired, hby⟩ hl hw _ _)
  · cases htest

end Rem

end Mwe
