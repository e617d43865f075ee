import MweCore.Capture.Write
import MweCore.Dream.Promote

/-!
# The fact that replaces another

`wikiSupersede` captures a claim with the comparison off, marks the fact it is told of as superseded
by the new one, and takes that fact's region off its page.  It looks the fact up among all rows,
and `markSuperseded` writes only to one that is neither superseded nor tombstoned; how many rows it
touched is not looked at.

A call reports that a fact was replaced.  `replaced_always_iff` says when the index bears that out:
the report stands exactly when the fact was active before the call.
-/

namespace Mwe

namespace Capture

/-! ## The call -/

/-- Reason of the tombstone of a fact whose marker is gone from its page. -/
def reasonMarkerRemoved : Str := "filesystem_marker_removed".toList

/-- A row as `clearRegionOffsetsRetired` leaves it. -/
def unplaced (now : Str) (r : FactRow) : FactRow :=
  { r with regionStart := none, regionEnd := none, updatedAt := now }

/-- What the index is told when a region is taken off a page: where the other regions of the page
are now, which facts have none any more, and that the fact has none. -/
inductive RegionRepair where
  | moveRegion (factId : FactId) (sourcePath : Str) (regionStart regionEnd : ℤ) (now : Str)
  | markForgottenAt (factId : FactId) (sourcePath now : Str)
  | clearRegionOffsetsRetired (factId : FactId) (now : Str)

/-- One of these statements. -/
def RegionRepair.run (facts : FactTable) : RegionRepair → FactTable
  | .moveRegion factId sourcePath regionStart regionEnd now =>
    FactIndex.moveRegion facts factId sourcePath (some regionStart, some regionEnd) now
  | .markForgottenAt factId sourcePath now =>
    facts.update
      (fun r => r.factId == factId && r.deletedAt.isNone && decide (r.sourcePath = sourcePath))
      (FactRow.forgotten reasonMarkerRemoved now) (FactRow.factId_forgotten reasonMarkerRemoved now)
  | .clearRegionOffsetsRetired factId now =>
    facts.update (fun r => r.factId == factId && !r.isActive) (unplaced now) fun _ => rfl

/-- A call of `wikiSupersede`. -/
structure Call (S T : Type*) where
  around : Around
  previous : FactId
  req : CaptureRequest S
  whenUnstated : T
  supersededAt : Str
  /-- what the index is told when the region of the previous fact is taken off its page -/
  strip : List RegionRepair := []

section Supersede

variable {S T : Type*} [LinearOrder S] [LinearOrder T] (floats : Floats S) (casing : Casing)
  (chrono : Chrono T)

/-- Capture a claim, and flag the fact it replaces as retired. -/
def wikiSupersede (facts : FactTable) (call : Call S T) :
    Except CaptureFailure (CaptureOutcome S) × FactTable :=
  if !call.around.reads then (.error .factIndex, facts)
  else match facts.get? call.previous with
  | none => (.error (.previousFactNotFound call.previous), facts)
  | some _ =>
    match wikiCapture floats casing call.around facts
        { call.req with dedupThreshold := some floats.off } with
    | (.error e, facts) => (.error e, facts)
    | (.ok outcome, facts) =>
      match outcome.action with
      | .captured sourcePath regionStart regionEnd =>
        if !call.around.supersedes then (.error .factIndex, facts)
        else
          let facts := (FactIndex.markSuperseded chrono facts none call.previous outcome.factId
            call.whenUnstated call.supersededAt).2
          (.ok { outcome with
              action := .superseded sourcePath regionStart regionEnd call.previous },
            call.strip.foldl RegionRepair.run facts)
      | _ => (.ok outcome, facts)

/-! ## Runs -/

/-- The fact index, and which fact each call reported as replaced by which. -/
structure Superseding where
  facts : FactTable
  reported : List (FactId × FactId) := []

/-- Whether an id is new to the index. -/
def IsFresh (facts : FactTable) (id : FactId) : Prop :=
  ∀ r ∈ facts.rows, r.factId ≠ id ∧ r.supersededBy ≠ some id

instance (facts : FactTable) (id : FactId) : Decidable (IsFresh facts id) :=
  inferInstanceAs (Decidable (∀ r ∈ facts.rows, _))

/-- The reports, with what a call returned. -/
def report (reported : List (FactId × FactId)) :
    Except CaptureFailure (CaptureOutcome S) → List (FactId × FactId)
  | .ok { factId, action := .superseded _ _ _ previous } => (previous, factId) :: reported
  | _ => reported

/-- One call, with an id that is new. -/
def step (s : Superseding) (call : Call S T) : Option Superseding :=
  if IsFresh s.facts call.around.freshId then
    some {
      facts := (wikiSupersede floats casing chrono s.facts call).2
      reported := report s.reported (wikiSupersede floats casing chrono s.facts call).1 }
  else none

end Supersede

/-- A fact and the one that replaced it, as the index has them. -/
def ReplacedBy (facts : FactTable) (previous successor : FactId) : Prop :=
  ∃ r, facts.get? previous = some r ∧ r.supersededAt.isSome ∧ r.supersededBy = some successor

/-- Every report stands: the fact is retired in favour of the new one, no other was reported in its
place, and so no two facts claim to have replaced the same one. -/
structure Superseding.Borne (s : Superseding) : Prop where
  retired : ∀ e ∈ s.reported, ReplacedBy s.facts e.1 e.2
  once : ∀ e ∈ s.reported, ∀ e' ∈ s.reported, e.1 = e'.1 → e.2 = e'.2

/-- Whether nothing keeps a call from its end: the request is accepted, and everybody around
answers. -/
def Call.goesThrough {S T : Type*} (call : Call S T) : Bool :=
  (accept call.around call.req).isOk && call.around.reads && call.around.page.isSome &&
    call.around.inserts && call.around.writes && call.around.supersedes

/-- The fact to replace is active. -/
def Call.TargetActive {S T : Type*} (facts : FactTable) (call : Call S T) : Prop :=
  ∀ r, facts.get? call.previous = some r → r.isActive = true

/-! ## What a call does to the successors -/

/-- When a fact was superseded, and by which. -/
def successorOf (facts : FactTable) (id : FactId) : Option (Option Str × Option FactId) :=
  (facts.get? id).map fun r => (r.supersededAt, r.supersededBy)

lemma replacedBy_iff {facts : FactTable} {previous successor : FactId} :
    ReplacedBy facts previous successor ↔
      ∃ at', successorOf facts previous = some (some at', some successor) := by
  unfold ReplacedBy successorOf
  cases facts.get? previous with
  | none => simp
  | some r =>
    cases hat : r.supersededAt <;> simp [hat]

/-- An update that does not write the successor leaves it. -/
lemma successorOf_update {facts : FactTable} {sel : FactRow → Bool} {set : FactRow → FactRow}
    {hset : ∀ r, (set r).factId = r.factId}
    (h : ∀ r, ((set r).supersededAt, (set r).supersededBy) = (r.supersededAt, r.supersededBy))
    (id : FactId) : successorOf (facts.update sel set hset) id = successorOf facts id := by
  unfold successorOf
  rw [Sql.Table.get?_update, Option.map_map]
  refine Option.map_congr fun r _ => ?_
  simp only [Function.comp_apply]
  split_ifs
  · exact h r
  · rfl

lemma successorOf_run (facts : FactTable) (repair : RegionRepair) (id : FactId) :
    successorOf (repair.run facts) id = successorOf facts id := by
  cases repair with
  | moveRegion factId sourcePath regionStart regionEnd now =>
    exact @successorOf_update _ _ _ (FactRow.factId_atRegion _ _ now) (by intro r; rfl) id
  | markForgottenAt factId sourcePath now =>
    exact @successorOf_update _ _ _ (FactRow.factId_forgotten _ now) (by intro r; rfl) id
  | clearRegionOffsetsRetired factId now =>
    exact @successorOf_update _ _ (unplaced now) (by intro r; rfl) (by intro r; rfl) id

/-- Taking a region off a page changes no successor. -/
lemma successorOf_strip (facts : FactTable) (strip : List RegionRepair) (id : FactId) :
    successorOf (strip.foldl RegionRepair.run facts) id = successorOf facts id := by
  induction strip generalizing facts with
  | nil => rfl
  | cons repair strip ih => rw [List.foldl_cons, ih, successorOf_run]

section Laws

variable {S T : Type*} [LinearOrder S] [LinearOrder T] {floats : Floats S} {casing : Casing}
  {chrono : Chrono T} {facts : FactTable} {call : Call S T}

/-- What a supersede says of the successor of a fact. -/
lemma successorOf_markSuperseded {staged : Option Str} {previous successor id : FactId}
    {whenUnstated : T} {now : Str} :
    successorOf (FactIndex.markSuperseded chrono facts staged previous successor whenUnstated now).2
        id =
      (facts.get? id).map fun r => if id = previous ∧ r.isActive = true then
        (some now, some successor) else (r.supersededAt, r.supersededBy) := by
  unfold successorOf FactIndex.markSuperseded
  dsimp only
  rw [Sql.Table.get?_update, Option.map_map]
  refine Option.map_congr fun r hr => ?_
  obtain ⟨-, rfl⟩ := Sql.Table.get?_eq_some_iff.mp hr
  simp only [Function.comp_apply, FactRow.isActive, Bool.and_assoc, Bool.and_eq_true, beq_iff_eq]
  split_ifs
  · rfl
  · rfl

omit [LinearOrder S] in
/-- What a request needs to be accepted. -/
lemma isOk_accept_iff {around : Around} {req : CaptureRequest S} :
    (accept around req).isOk = true ↔
      ∃ page, validateBody req.body = .ok () ∧ req.page = some page ∧
        isSafePagePath page = true ∧ (normalizeSenderAttribution req).isOk = true ∧
          around.located = true ∧ around.pageCreationRefusal = none ∧ around.embeds = true := by
  constructor
  · intro h
    cases haccept : accept around req with
    | error e => simp [haccept, Except.isOk, Except.toBool] at h
    | ok accepted =>
      obtain ⟨page, req'⟩ := accepted
      obtain ⟨hbody, hpage, hsafe, hnormalized, hrest⟩ := accept_eq_ok_iff.mp haccept
      exact ⟨page, hbody, hpage, hsafe, by rw [hnormalized]; rfl, hrest⟩
  · rintro ⟨page, hbody, hpage, hsafe, hnormalized, hrest⟩
    cases hreq : normalizeSenderAttribution req with
    | error e => simp [hreq, Except.isOk, Except.toBool] at hnormalized
    | ok req' =>
      rw [accept_eq_ok_iff.mpr ⟨hbody, hpage, hsafe, hreq, hrest⟩]
      rfl

omit [LinearOrder S] in
/-- Whether a request is accepted does not depend on its threshold. -/
lemma isOk_accept (around : Around) (req : CaptureRequest S) (threshold : Option S) :
    (accept around { req with dedupThreshold := threshold }).isOk = (accept around req).isOk := by
  have hnormalized : (normalizeSenderAttribution { req with dedupThreshold := threshold }).isOk =
      (normalizeSenderAttribution req).isOk := by
    unfold normalizeSenderAttribution
    dsimp only
    split
    · rfl
    · split_ifs <;> rfl
  rw [Bool.eq_iff_iff, isOk_accept_iff, isOk_accept_iff, hnormalized]

omit [LinearOrder T] in
/-- With the comparison off, a capture that is accepted is a write. -/
lemma wikiCapture_off {req : CaptureRequest S} (hoff : req.dedupThreshold = some floats.off)
    (hreads : call.around.reads = true) :
    (∃ e, accept call.around req = .error e ∧
        wikiCapture floats casing call.around facts req = (.error e, facts)) ∨
      ∃ page req', accept call.around req = .ok (page, req') ∧
        wikiCapture floats casing call.around facts req =
          writeFact call.around facts req' page none := by
  unfold wikiCapture wikiCaptureWithSource
  cases haccept : accept call.around req with
  | error e => exact .inl ⟨e, rfl, rfl⟩
  | ok accepted =>
    obtain ⟨page, req'⟩ := accepted
    obtain ⟨-, -, -, hnormalized, -⟩ := accept_eq_ok_iff.mp haccept
    have hoff' : req'.dedupThreshold = some floats.off := by
      rw [normalize_eq_ok hnormalized]
      exact hoff
    refine .inr ⟨page, req', rfl, ?_⟩
    simp only [hreads, repeatedFact_off hoff']
    rfl

/-- What a call does: it fails and leaves every fact but the fresh one alone, or it goes through,
writes the fresh one, and marks its target. -/
lemma wikiSupersede_cases (hfresh : IsFresh facts call.around.freshId) :
    ((call.goesThrough = false ∨ facts.get? call.previous = none) ∧
        (∃ e, (wikiSupersede floats casing chrono facts call).1 = .error e) ∧
        ∀ id ≠ call.around.freshId,
          (wikiSupersede floats casing chrono facts call).2.get? id = facts.get? id) ∨
      call.goesThrough = true ∧ (facts.get? call.previous).isSome ∧
        (∃ start stop, (wikiSupersede floats casing chrono facts call).1 =
          .ok ⟨call.around.freshId,
            .superseded call.around.sourcePath start stop call.previous⟩) ∧
        ∃ written : FactTable, (∀ id ≠ call.around.freshId, written.get? id = facts.get? id) ∧
          (wikiSupersede floats casing chrono facts call).2 = call.strip.foldl RegionRepair.run
            (FactIndex.markSuperseded chrono written none call.previous call.around.freshId
              call.whenUnstated call.supersededAt).2 := by
  unfold wikiSupersede Call.goesThrough
  cases hreads : call.around.reads with
  | false => simp
  | true =>
    cases hget : facts.get? call.previous with
    | none => simp
    | some row =>
      dsimp only
      rcases @wikiCapture_off S T _ floats casing facts call
          { call.req with dedupThreshold := some floats.off } rfl hreads with
        ⟨e, haccept, hcapture⟩ | ⟨page, req', haccept, hcapture⟩
      · have hrefused : (accept call.around call.req).isOk = false := by
          rw [← isOk_accept call.around call.req (some floats.off), haccept]
          rfl
        left
        rw [hcapture, hrefused]
        simp
      · have haccepted : (accept call.around call.req).isOk = true := by
          rw [← isOk_accept call.around call.req (some floats.off), haccept]
          rfl
        have hkeys : ∀ r ∈ facts, r.factId ≠ call.around.freshId := fun r hr => (hfresh r hr).1
        have hothers : ∀ id ≠ call.around.freshId,
            (writeFact call.around facts req' page none).2.get? id = facts.get? id :=
          fun id hid => get?_writeFact hid
        rw [hcapture, haccepted]
        rcases @writeFact_fst S _ _ req' page none hkeys with
          ⟨hpage, hinserts, hwrites, start, stop, hdone⟩ | ⟨hfails, e, hdone⟩
        · rw [← Prod.eta (writeFact call.around facts req' page none), hdone]
          cases hsupersedes : call.around.supersedes with
          | false =>
            left
            simpa [hpage, hinserts, hwrites] using hothers
          | true =>
            right
            refine ⟨by simp [hpage, hinserts, hwrites], rfl, ⟨_, _, rfl⟩, _, hothers, rfl⟩
        · rw [← Prod.eta (writeFact call.around facts req' page none), hdone]
          left
          refine ⟨.inl ?_, ⟨e, rfl⟩, hothers⟩
          revert hfails
          cases call.around.page.isSome <;> cases call.around.inserts <;>
            cases call.around.writes <;> simp

/-- What a call leaves of the successors: a call that goes through gives an active target its new
one, and nothing else changes. -/
lemma successorOf_wikiSupersede (hfresh : IsFresh facts call.around.freshId) {id : FactId}
    (hid : id ≠ call.around.freshId) :
    successorOf (wikiSupersede floats casing chrono facts call).2 id =
      (facts.get? id).map fun r =>
        if call.goesThrough = true ∧ id = call.previous ∧ r.isActive = true then
          (some call.supersededAt, some call.around.freshId)
        else (r.supersededAt, r.supersededBy) := by
  rcases @wikiSupersede_cases S T _ _ floats casing chrono _ _ hfresh with
    ⟨hno, -, hothers⟩ | ⟨hthrough, -, -, written, hothers, hdone⟩
  · rw [successorOf, hothers id hid]
    refine Option.map_congr fun r hr => ?_
    rw [if_neg]
    rintro ⟨hthrough, rfl, -⟩
    rcases hno with hno | hno
    · rw [hthrough] at hno
      cases hno
    · cases hno.symm.trans hr
  · rw [hdone, successorOf_strip, successorOf_markSuperseded, hothers id hid]
    simp [hthrough]

/-- What a call reports: a replacement exactly when it goes through and finds its target. -/
lemma reported_eq (hfresh : IsFresh facts call.around.freshId)
    {reported : List (FactId × FactId)} :
    report reported (wikiSupersede floats casing chrono facts call).1 =
      if call.goesThrough = true ∧ (facts.get? call.previous).isSome = true then
        (call.previous, call.around.freshId) :: reported
      else reported := by
  rcases @wikiSupersede_cases S T _ _ floats casing chrono _ _ hfresh with
    ⟨hno, ⟨e, herror⟩, -⟩ | ⟨hthrough, hfound, ⟨start, stop, hok⟩, -⟩
  · have hnot : ¬ (call.goesThrough = true ∧ (facts.get? call.previous).isSome = true) := by
      rintro ⟨hthrough, hfound⟩
      rcases hno with hno | hno
      · rw [hthrough] at hno
        cases hno
      · rw [hno] at hfound
        cases hfound
    rw [herror, if_neg hnot]
    rfl
  · rw [hok, if_pos ⟨hthrough, hfound⟩]
    rfl

/-! ## Runs -/

lemma borne_of_retired {s : Superseding}
    (h : ∀ e ∈ s.reported, ReplacedBy s.facts e.1 e.2) : s.Borne := by
  refine ⟨h, ?_⟩
  intro e he e' he' hsame
  obtain ⟨r, hr, -, hby⟩ := h e he
  obtain ⟨r', hr', -, hby'⟩ := h e' he'
  rw [hsame, hr'] at hr
  rw [Option.some.inj hr, hby] at hby'
  exact Option.some.inj hby'

/-- A report that stands goes on standing: its fact is active no more. -/
lemma replacedBy_wikiSupersede (hfresh : IsFresh facts call.around.freshId)
    {previous successor : FactId}
    (h : ReplacedBy facts previous successor) :
    ReplacedBy (wikiSupersede floats casing chrono facts call).2 previous successor := by
  obtain ⟨r, hr, hat, hby⟩ := h
  obtain ⟨hmem, hkey⟩ := Sql.Table.get?_eq_some_iff.mp hr
  have hid : previous ≠ call.around.freshId := by
    rw [← hkey]
    exact (hfresh r hmem).1
  obtain ⟨at', hat'⟩ := Option.isSome_iff_exists.mp hat
  refine replacedBy_iff.mpr ⟨at', ?_⟩
  rw [successorOf_wikiSupersede hfresh hid, hr, Option.map_some, if_neg, hat', hby]
  rintro ⟨hthrough, rfl, hstands⟩
  simp [FactRow.isActive, hat'] at hstands

/-- Every report that stood stands after a call, and a new one stands exactly when its target was
active. -/
lemma step_borne_iff {s s' : Superseding}
    (h : step floats casing chrono s call = some s') (hs : s.Borne) :
    s'.Borne ↔ (call.goesThrough = true → call.TargetActive s.facts) := by
  unfold step at h
  split_ifs at h with hfresh
  obtain rfl := Option.some.inj h
  rw [reported_eq hfresh]
  by_cases hdoes : call.goesThrough = true ∧ (s.facts.get? call.previous).isSome = true
  · rw [if_pos hdoes]
    obtain ⟨hthrough, hfound⟩ := hdoes
    obtain ⟨row, hrow⟩ := Option.isSome_iff_exists.mp hfound
    obtain ⟨hmem, hkey⟩ := Sql.Table.get?_eq_some_iff.mp hrow
    have hprevious : call.previous ≠ call.around.freshId := by
      rw [← hkey]
      exact (hfresh row hmem).1
    have hsuccessor :=
      @successorOf_wikiSupersede S T _ _ floats casing chrono _ _ hfresh _ hprevious
    rw [hrow, Option.map_some] at hsuccessor
    constructor
    · intro hborne _ r hr
      obtain rfl := Option.some.inj (hrow.symm.trans hr)
      obtain ⟨at', hat⟩ := replacedBy_iff.mp (hborne.retired _ List.mem_cons_self)
      by_contra hinactive
      rw [hsuccessor, if_neg fun hall => hinactive hall.2.2] at hat
      exact (hfresh row hmem).2 (Prod.mk.inj (Option.some.inj hat)).2
    · intro hactive
      refine borne_of_retired fun e he => ?_
      rcases List.mem_cons.mp he with rfl | he
      · refine replacedBy_iff.mpr ⟨call.supersededAt, ?_⟩
        rw [hsuccessor, if_pos ⟨hthrough, rfl, hactive hthrough row hrow⟩]
      · exact replacedBy_wikiSupersede hfresh (hs.retired e he)
  · rw [if_neg hdoes]
    have hactive : call.goesThrough = true → call.TargetActive s.facts := by
      intro hthrough r hr
      exact absurd ⟨hthrough, by rw [hr]; rfl⟩ hdoes
    refine iff_of_true (borne_of_retired fun e he => ?_) hactive
    exact replacedBy_wikiSupersede hfresh (hs.retired e he)

/-- Along any run of supersedes every report stands, with one successor for each fact reported, in
every state exactly if the target of every call that goes through is active. -/
theorem replaced_always_iff {s t : Superseding} {trace : List (Superseding × Call S T)}
    (hrun : Run (step floats casing chrono) s trace t) (hs : s.reported = []) :
    Run.Always Superseding.Borne trace t ↔
      ∀ p ∈ trace, p.2.goesThrough = true → p.2.TargetActive p.1.facts := by
  refine hrun.always_iff (borne_of_retired ?_) fun hstep hborne => step_borne_iff hstep hborne
  rw [hs]
  simp

end Laws

/-! ## The shop changes its hours -/

open FactIndex (halfPast sampleChrono)

/-- A claim on the hours of the shop, and its call. -/
def newHours (freshId previous : FactId) (body : Str) : Call ℚ ℤ where
  around := { freshId, roster := household, sourcePath := "wikis/alice/notes.md".toList, now := [] }
  previous := previous
  req := {
    wikiId := ⟨"alice".toList, checkSlug_alice⟩
    page := some "notes.md".toList
    body := body
    subject := .user "alice".toList }
  whenUnstated := 0
  supersededAt := []

/-- The ids of the two corrections. -/
def firstHours : FactId := ⟨"018f1234-5678-7abc-9def-0123456789ac".toList, isFactId_ac⟩
def laterHours : FactId := ⟨"018f1234-5678-7abc-9def-0123456789ad".toList, isFactId_ad⟩

/-- The shop's hours, as they were told. -/
def hoursTold : Superseding where
  facts := Sql.Table.insertIfAbsent (Sql.Table.empty _) (halfPast.row [])

/-- The second correction corrects the first. -/
def inTurn : List (Call ℚ ℤ) :=
  [newHours firstHours halfPast.factId "The shop closes at six.".toList,
    newHours laterHours firstHours "The shop closes at seven.".toList]

/-- Both corrections correct what was told at first. -/
def bothOfTheFirst : List (Call ℚ ℤ) :=
  [newHours firstHours halfPast.factId "The shop closes at six.".toList,
    newHours laterHours halfPast.factId "The shop closes at seven.".toList]

/-- Whether a call that goes through has an active target. -/
def checkTarget (s : Superseding) (call : Call ℚ ℤ) : Bool :=
  !call.goesThrough || (s.facts.get? call.previous).all FactRow.isActive

/-- Calls on the shop's hours, one after the other. -/
abbrev stepHours : Superseding → Call ℚ ℤ → Option Superseding :=
  step exactFloats asciiCasing sampleChrono

theorem replaced_always_iff_inTurn :
    ∃ trace t, Run stepHours hoursTold trace t ∧
      t.reported.length = 2 ∧ Run.Always Superseding.Borne trace t := by
  have hruns : (inTurn.foldlM (fun x e => if checkTarget x e then stepHours x e else none)
      hoursTold).any (fun t => t.reported.length = 2) = true := by decide +kernel
  obtain ⟨trace, t, hrun, hchecked, hlength⟩ := Run.exists_of_any_checked hruns
  refine ⟨trace, t, hrun, of_decide_eq_true hlength, (replaced_always_iff hrun rfl).mpr ?_⟩
  intro p hp hthrough r hr
  simpa [checkTarget, hthrough, hr] using hchecked p hp

theorem replaced_twice :
    ∃ trace t, Run stepHours hoursTold trace t ∧
      hoursTold.reported = [] ∧ ¬ Run.Always Superseding.Borne trace t := by
  have hruns : (bothOfTheFirst.foldlM stepHours hoursTold).any (fun t => t.reported =
      [(halfPast.factId, laterHours), (halfPast.factId, firstHours)]) = true := by decide +kernel
  obtain ⟨trace, t, hrun, htwice⟩ := Run.exists_of_any hruns
  refine ⟨trace, t, hrun, rfl, ?_⟩
  rintro ⟨-, hborne⟩
  have hreported := of_decide_eq_true htwice
  have hsame : laterHours = firstHours :=
    hborne.once (halfPast.factId, laterHours) (by rw [hreported]; simp)
      (halfPast.factId, firstHours) (by rw [hreported]; simp) rfl
  exact absurd hsame (by decide)

end Capture

end Mwe
