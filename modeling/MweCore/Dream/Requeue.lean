import MweCore.Dream.Promote

/-!
# Back in the queue

`rebuffer_fact` takes a fact off the index and puts it in the queue under its own id, for the light
dream to place again.  A fact that came from the queue has its old row there still, and then only
the row's standing is set: what the claim says is what it said when it was first heard.

`Claim` is what a re-queued fact has to keep.  `requeue_lossless_iff` says that a fact keeps it
exactly when its old row, if it has one, still says what the fact says.
-/

namespace Mwe

open Str

/-! ## The claim of a row -/

/-- What a fact says, of whom, to whom and until when. -/
structure Claim where
  text : Str
  subject : Principal
  subjectExternal : Option Str
  allow : List Principal
  excluded : List Principal
  author : Option Principal
  validFrom : Option Str
  validTo : Option Str
  decayReason : Option Str
  slot : Option Str
  slotValue : Option Str
  sourceRef : Option Str
  authoredRefs : List Str
  deriving DecidableEq

/-- The claim of a fact. -/
def FactRow.claim (r : FactRow) : Claim where
  text := r.text
  subject := r.subjectId
  subjectExternal := r.subjectExternal
  allow := r.allowIds
  excluded := r.excludedIds
  author := r.senderId
  validFrom := r.validFrom
  validTo := r.validTo
  decayReason := r.decayReason
  slot := r.slot
  slotValue := r.slotValue
  sourceRef := r.sourceRef
  authoredRefs := r.authoredRefs

/-- The claim of a row of the queue. -/
def BufferedCapture.claim (cap : BufferedCapture) : Claim where
  text := cap.body
  subject := cap.subject
  subjectExternal := cap.subjectExternal
  allow := cap.allow
  excluded := cap.excluded
  author := cap.sender
  validFrom := cap.validFrom
  validTo := cap.validTo
  decayReason := cap.decayReason
  slot := cap.slot
  slotValue := cap.slotValue
  sourceRef := cap.sourceRef
  authoredRefs := cap.authoredRefs

/-! ## The re-queue -/

/-- The row a fact goes back into the queue as. -/
def FactRow.rebuffered (now : Str) (r : FactRow) : BufferedCapture where
  captureId := r.factId
  body := r.text
  subject := r.subjectId
  allow := r.allowIds
  excluded := r.excludedIds
  sender := r.senderId
  factType := r.factType
  topics := r.topics
  status := .buffered
  capturedAt := now
  sourceKind := "rebuffer".toList
  sourceRef := r.sourceRef
  validFrom := r.validFrom
  validTo := r.validTo
  decayReason := r.decayReason
  style := r.style
  salience := r.salience
  authoredRefs := r.authoredRefs
  subjectExternal := r.subjectExternal
  slot := r.slot
  slotValue := r.slotValue

@[simp] lemma FactRow.captureId_rebuffered (now : Str) (r : FactRow) :
    (r.rebuffered now).captureId = r.factId := rfl

namespace Store

/-- Put a written fact back in the queue; whether there was one. -/
def rebufferFact (s : Store) (factId : FactId) (now : Str) : Bool × Store :=
  match FactIndex.activeRow s.facts factId with
  | none => (false, s)
  | some row =>
    (true, { facts := s.facts.delete fun r => r.factId == factId
             queue := s.queue.upsert (row.rebuffered now) BufferedCapture.requeued
               BufferedCapture.captureId_requeued })

variable {T : Type*} [LinearOrder T] (chrono : Chrono T)

/-- Write the waiting claim of an id on a page, when there is one. -/
def promote (s : Store) (env : PromoteEnv T) (captureId : FactId) (wikiId pagePath : Str) :
    Option Store :=
  (CaptureBuffer.waitingRow s.queue captureId).map fun cap =>
    s.writePlaced chrono env cap wikiId pagePath

/-- Re-queueing a fact and writing it again, on some page, loses nothing of its claim. -/
def Lossless (s : Store) (r : FactRow) (now : Str) (env : PromoteEnv T) (wikiId pagePath : Str) :
    Prop :=
  ∃ s' r', promote chrono (s.rebufferFact r.factId now).2 env r.factId wikiId pagePath = some s' ∧
    s'.facts.get? r.factId = some r' ∧ r'.claim = r.claim

/-! ### What is written -/

lemma claim_rebuffered (now : Str) (r : FactRow) : (r.rebuffered now).claim = r.claim := rfl

lemma claim_requeued (cap : BufferedCapture) : cap.requeued.claim = cap.claim := rfl

/-- A claim with no fact under its id becomes one that says what the claim says. -/
lemma exists_writePlaced {s : Store} (env : PromoteEnv T) {cap : BufferedCapture}
    (wikiId pagePath : Str) (hfree : s.facts.get? cap.captureId = none)
    (hhint : cap.supersedeHint ≠ some cap.captureId) :
    ∃ r, (s.writePlaced chrono env cap wikiId pagePath).facts.get? cap.captureId = some r ∧
      r.claim = cap.claim := by
  have hinserted : (s.insertPlaced env cap wikiId pagePath).facts.get? cap.captureId =
      some ((placedFact cap wikiId pagePath).row env.insertedAt) := by
    unfold insertPlaced FactIndex.insertIfAbsent
    rw [Sql.Table.get?_insertIfAbsent, hfree]
    exact if_pos rfl
  have hstamped : ∃ r, ((s.insertPlaced env cap wikiId pagePath).stampPlaced env cap).facts.get?
      cap.captureId = some r ∧ r.claim = cap.claim := by
    unfold stampPlaced
    cases hreason : cap.decayReason with
    | none =>
      refine ⟨_, hinserted, ?_⟩
      simp [FactRow.claim, BufferedCapture.claim, NewFact.row, placedFact, hreason]
    | some reason =>
      dsimp only [FactIndex.stampDecayReason]
      rw [FactIndex.get?_updateActive, hinserted]
      refine ⟨_, rfl, ?_⟩
      simp [FactRow.claim, BufferedCapture.claim, NewFact.row, placedFact, FactRow.stamped,
        hreason]
  obtain ⟨r, hr, hclaim⟩ := hstamped
  refine ⟨r, ?_, hclaim⟩
  change (supersedeHinted chrono _ env cap).facts.get? cap.captureId = some r
  unfold supersedeHinted
  cases hold : hinted ((s.insertPlaced env cap wikiId pagePath).stampPlaced env cap) cap with
  | none => exact hr
  | some old =>
    dsimp only
    rw [FactIndex.get?_markSuperseded]
    · exact hr
    · rintro rfl
      obtain ⟨hhinted, -⟩ := Option.filter_eq_some_iff.mp hold
      exact hhint hhinted

/-- The queue row of a fact that goes back: its old one, or one made of the fact. -/
lemma waitingRow_rebufferFact {s : Store} {r : FactRow} (now : Str)
    (hr : s.facts.get? r.factId = some r) (hlive : r.deletedAt = none) :
    (s.rebufferFact r.factId now).2.facts.get? r.factId = none ∧
      CaptureBuffer.waitingRow (s.rebufferFact r.factId now).2.queue r.factId =
        some ((s.queue.get? r.factId).elim (r.rebuffered now) BufferedCapture.requeued) := by
  have hactive : FactIndex.activeRow s.facts r.factId = some r := by
    unfold FactIndex.activeRow
    rw [hr, Option.filter_some_pos (by simp [hlive])]
  unfold rebufferFact
  rw [hactive]
  dsimp only
  constructor
  · rw [Sql.Table.get?_delete, hr, Option.filter_some_neg (by simp)]
  · unfold CaptureBuffer.waitingRow
    rw [Sql.Table.get?_upsert, if_pos (r.captureId_rebuffered now)]
    cases s.queue.get? r.factId with
    | none => exact Option.filter_some_pos (by simp [FactRow.rebuffered])
    | some cap => exact Option.filter_some_pos (by simp [BufferedCapture.requeued])

/-- A fact that goes back and is written again says what its old queue row says, when it has one, and
else what it said. -/
lemma lossless_iff {s : Store} {r : FactRow} (hr : s.facts.get? r.factId = some r)
    (hlive : r.deletedAt = none)
    (hhint : ∀ cap, s.queue.get? r.factId = some cap → cap.supersedeHint ≠ some r.factId)
    (now : Str) (env : PromoteEnv T) (wikiId pagePath : Str) :
    Lossless chrono s r now env wikiId pagePath ↔
      ∀ cap, s.queue.get? r.factId = some cap → cap.claim = r.claim := by
  obtain ⟨hfree, hwaits⟩ := waitingRow_rebufferFact now hr hlive
  -- the row that is written, and what it says
  obtain ⟨cap, hcap, hid, hnot, hclaim⟩ : ∃ cap,
      CaptureBuffer.waitingRow (s.rebufferFact r.factId now).2.queue r.factId = some cap ∧
        cap.captureId = r.factId ∧ cap.supersedeHint ≠ some r.factId ∧
        cap.claim = (s.queue.get? r.factId).elim r.claim BufferedCapture.claim := by
    refine ⟨_, hwaits, ?_⟩
    cases hold : s.queue.get? r.factId with
    | none => exact ⟨rfl, by simp [FactRow.rebuffered], rfl⟩
    | some old => exact ⟨(Sql.Table.get?_eq_some_iff.mp hold).2, hhint old hold, rfl⟩
  rw [← hid] at hfree hnot
  obtain ⟨r', hr', hsays⟩ := exists_writePlaced chrono env wikiId pagePath hfree hnot
  rw [hid] at hr'
  have hpromoted : promote chrono (s.rebufferFact r.factId now).2 env r.factId wikiId pagePath =
      some ((s.rebufferFact r.factId now).2.writePlaced chrono env cap wikiId pagePath) := by
    unfold promote
    rw [hcap, Option.map_some]
  have hiff : Lossless chrono s r now env wikiId pagePath ↔ cap.claim = r.claim := by
    constructor
    · rintro ⟨s', r'', hs', hr'', hsame⟩
      obtain rfl := Option.some.inj (hpromoted.symm.trans hs')
      obtain rfl := Option.some.inj (hr'.symm.trans hr'')
      exact hsays.symm.trans hsame
    · intro hsame
      exact ⟨_, r', hpromoted, hr', hsays.trans hsame⟩
  rw [hiff, hclaim]
  cases s.queue.get? r.factId <;> simp

/-! ## Histories -/

/-- A change of a fact's access lists, or its tombstone. -/
inductive AccessEvent where
  | setAcl (factId : FactId) (subject : Principal) (allow : List Principal)
      (sender : Option Principal) (excluded : Option (List Principal)) (now : Str)
  | restrictTo (factId : FactId) (excluded readers : List Principal) (now : Str)
  | inheritAllow (factId : FactId) (allow : List Principal) (now : Str)
  | markForgotten (factId : FactId) (reason now : Str)

/-- A change of a claim that waits. -/
inductive WaitingEvent (T : Type*) where
  | closeValidity (captureId : FactId) (validTo reason : Str) (whenUnstated : T)
  | setValidity (captureId : FactId) (validFrom validTo : Option Str)
  | setAcl (captureId : FactId) (subject : Principal) (allow : List Principal)
      (sender : Option Principal)
  | inheritAllow (captureId : FactId) (allow : List Principal)
  | markSkippedDup (captureId dup : FactId) (now : Str)

/-- What can happen to the two tables. -/
inductive Event (T : Type*) where
  | window (e : FactIndex.Event T)
  | access (e : AccessEvent)
  | buffer (cap : BufferedCapture)
  | waiting (e : WaitingEvent T)
  | promote (env : PromoteEnv T) (captureId : FactId) (wikiId pagePath : Str)
  | rebuffer (factId : FactId) (now : Str)

/-- The fact index after an access change. -/
def accessStep (facts : FactTable) : AccessEvent → FactTable
  | .setAcl factId subject allow sender excluded now =>
    (FactIndex.setAcl facts factId subject allow sender excluded now).2
  | .restrictTo factId excluded readers now =>
    (FactIndex.restrictTo facts factId excluded readers now).2
  | .inheritAllow factId allow now => (FactIndex.inheritAllow facts factId allow now).2
  | .markForgotten factId reason now => (FactIndex.markForgotten facts factId reason now).2

/-- The queue after a change of a claim. -/
def waitingStep (queue : QueueTable) : WaitingEvent T → QueueTable
  | .closeValidity captureId validTo reason whenUnstated =>
    (CaptureBuffer.closeValidity chrono queue captureId validTo reason whenUnstated).2
  | .setValidity captureId validFrom validTo =>
    (CaptureBuffer.setValidity chrono queue captureId validFrom validTo).2
  | .setAcl captureId subject allow sender =>
    (CaptureBuffer.setAcl queue captureId subject allow sender).2
  | .inheritAllow captureId allow => (CaptureBuffer.inheritAllow queue captureId allow).2
  | .markSkippedDup captureId dup now => CaptureBuffer.markSkippedDup queue captureId dup now

/-- One event.  The id of a claim is minted when it is buffered, after the hint it comes with. -/
def step (s : Store) : Event T → Option Store
  | .window e => (FactIndex.step chrono s.facts e).map fun facts => { s with facts }
  | .access e => some { s with facts := accessStep s.facts e }
  | .buffer cap =>
    if cap.supersedeHint = some cap.captureId then none
    else (s.queue.insert cap).map fun queue => { s with queue }
  | .waiting e => some { s with queue := waitingStep chrono s.queue e }
  | .promote env captureId wikiId pagePath => s.promote chrono env captureId wikiId pagePath
  | .rebuffer factId now => some (s.rebufferFact factId now).2

/-- No claim was heard to replace itself. -/
def HintsElsewhere (queue : QueueTable) : Prop :=
  ∀ id cap, queue.get? id = some cap → cap.supersedeHint ≠ some id

/-- A rewrite that leaves the hints alone. -/
lemma hintsElsewhere_updateWaiting {queue : QueueTable} {captureId : FactId}
    {set : BufferedCapture → BufferedCapture} (hset : ∀ cap, (set cap).captureId = cap.captureId)
    (h : HintsElsewhere queue) (hkept : ∀ cap, (set cap).supersedeHint = cap.supersedeHint) :
    HintsElsewhere (CaptureBuffer.updateWaiting queue captureId set hset) := by
  intro id cap hcap
  rw [CaptureBuffer.get?_updateWaiting] at hcap
  obtain ⟨old, hold, rfl⟩ := Option.map_eq_some_iff.mp hcap
  split_ifs
  · rw [hkept]
    exact h id old hold
  · exact h id old hold

lemma hintsElsewhere_waitingStep {queue : QueueTable} {e : WaitingEvent T}
    (h : HintsElsewhere queue) : HintsElsewhere (waitingStep chrono queue e) := by
  cases e with
  | closeValidity captureId validTo reason whenUnstated =>
    dsimp only [waitingStep, CaptureBuffer.closeValidity]
    split
    · exact h
    · exact hintsElsewhere_updateWaiting (BufferedCapture.captureId_closed _ _) h fun _ => rfl
  | setValidity captureId validFrom validTo =>
    dsimp only [waitingStep, CaptureBuffer.setValidity]
    split
    · exact h
    · split_ifs
      · exact h
      · exact hintsElsewhere_updateWaiting (BufferedCapture.captureId_edited _ _) h fun _ => rfl
  | setAcl captureId subject allow sender =>
    dsimp only [waitingStep, CaptureBuffer.setAcl]
    split
    · exact h
    · exact hintsElsewhere_updateWaiting (BufferedCapture.captureId_withAcl _ _ _) h fun _ => rfl
  | inheritAllow captureId allow =>
    exact hintsElsewhere_updateWaiting (BufferedCapture.captureId_withAllow _) h fun _ => rfl
  | markSkippedDup captureId dup now =>
    exact hintsElsewhere_updateWaiting (BufferedCapture.captureId_skipped _ _) h fun _ => rfl

lemma queue_writePlaced (s : Store) (env : PromoteEnv T) (cap : BufferedCapture)
    (wikiId pagePath : Str) : (s.writePlaced chrono env cap wikiId pagePath).queue =
      CaptureBuffer.markPromoted s.queue cap.captureId env.promotedAt := by
  have hstamp : ∀ s' : Store, (s'.stampPlaced env cap).queue = s'.queue := by
    intro s'
    unfold stampPlaced
    split <;> rfl
  have hsupersede : ∀ s' : Store, (s'.supersedeHinted chrono env cap).queue = s'.queue := by
    intro s'
    unfold supersedeHinted
    split <;> rfl
  unfold writePlaced finishPlaced
  rw [hsupersede, hstamp]
  rfl

/-- No event makes a claim replace itself. -/
lemma hintsElsewhere_step {s t : Store} {e : Event T} (h : step chrono s e = some t)
    (hs : HintsElsewhere s.queue) : HintsElsewhere t.queue := by
  cases e with
  | window e =>
    obtain ⟨facts, -, rfl⟩ := Option.map_eq_some_iff.mp h
    exact hs
  | access e =>
    obtain rfl := Option.some.inj h
    exact hs
  | buffer cap =>
    simp only [step] at h
    split_ifs at h with hself
    obtain ⟨queue, hinserted, rfl⟩ := Option.map_eq_some_iff.mp h
    intro id cap' hcap'
    rw [Sql.Table.get?_insert hinserted] at hcap'
    split_ifs at hcap' with hid
    · obtain rfl := Option.some.inj hcap'
      rwa [hid] at hself
    · exact hs id cap' hcap'
  | waiting e =>
    obtain rfl := Option.some.inj h
    exact hintsElsewhere_waitingStep chrono hs
  | promote env captureId wikiId pagePath =>
    obtain ⟨cap, -, rfl⟩ := Option.map_eq_some_iff.mp h
    rw [queue_writePlaced]
    exact hintsElsewhere_updateWaiting (BufferedCapture.captureId_promoted _) hs fun _ => rfl
  | rebuffer factId now =>
    obtain rfl := Option.some.inj h
    unfold rebufferFact
    split
    · exact hs
    · next row hrow =>
      intro id cap hcap
      dsimp only at hcap
      rw [Sql.Table.get?_upsert] at hcap
      split_ifs at hcap with hid
      · obtain rfl := Option.some.inj hcap
        cases hold : s.queue.get? id with
        | none => simp [FactRow.rebuffered]
        | some old => exact hs id old hold
      · exact hs id cap hcap

/-- After any history, re-queueing an active fact and writing it again loses nothing exactly when
the row the fact left in the queue, if it came from there, still says what the fact says. -/
theorem requeue_lossless_iff {s t : Store} {trace : List (Store × Event T)}
    (hrun : Run (step chrono) s trace t) (hstart : s.queue.rows = []) :
    Run.Always (fun x => ∀ r ∈ x.facts, r.supersededAt = none → r.deletedAt = none →
      ∀ now env wikiId pagePath, Lossless chrono x r now env wikiId pagePath ↔
        ∀ cap ∈ x.queue, cap.captureId = r.factId → cap.claim = r.claim) trace t := by
  have hempty : HintsElsewhere s.queue := by
    intro id cap hcap
    have hmem : cap ∈ s.queue.rows := (Sql.Table.get?_eq_some_iff.mp hcap).1
    simp [hstart] at hmem
  have hiff : ∀ x : Store, HintsElsewhere x.queue → ∀ r ∈ x.facts, r.supersededAt = none →
      r.deletedAt = none → ∀ now env wikiId pagePath,
        Lossless chrono x r now env wikiId pagePath ↔
          ∀ cap ∈ x.queue, cap.captureId = r.factId → cap.claim = r.claim := by
    intro x hx r hr _ hlive now env wikiId pagePath
    rw [lossless_iff chrono (Sql.Table.get?_eq_some_iff.mpr ⟨hr, rfl⟩) hlive
      (fun cap hcap => hx r.factId cap hcap)]
    simp only [Sql.Table.get?_eq_some_iff, and_imp]
  obtain ⟨hstates, hlast⟩ := hrun.invariant (C := fun _ _ => True) hempty
    (fun hstep hx _ => hintsElsewhere_step chrono hstep hx) (by simp)
  exact ⟨fun p hp => hiff p.1 (hstates p hp), hiff t hlast⟩

/-! ## A fact that is kept from somebody -/

open FactIndex (sampleChrono halfPast)

/-- Nothing in either table. -/
def nothing : Store := ⟨Sql.Table.empty _, Sql.Table.empty _⟩

/-- A claim as it is heard. -/
def heard : BufferedCapture where
  captureId := halfPast.factId
  body := halfPast.text
  subject := halfPast.subjectId
  capturedAt := "2026-06-10T10:00:00Z".toList

/-- The clocks of a promotion. -/
def promoteEnv : PromoteEnv ℤ := ⟨0, [], [], [], []⟩

/-- Keep the fact from Bob. -/
def keepFromBob : Event ℤ :=
  .access (.restrictTo halfPast.factId [.user "bob".toList] [] [])

/-- The claim waits, is written, and is then kept from Bob. -/
def heardThenKept : List (Event ℤ) :=
  [.buffer heard, .promote promoteEnv halfPast.factId "alice".toList "notes.md".toList,
    keepFromBob]

/-- The fact is written in the turn, and is then kept from Bob. -/
def writtenThenKept : List (Event ℤ) := [.window (.insert halfPast []), keepFromBob]

/-- The claim of the fact once it was re-queued and written again. -/
def claimAgain (s : Store) : Option Claim :=
  (promote sampleChrono (s.rebufferFact halfPast.factId []).2 promoteEnv halfPast.factId
    "alice".toList "notes.md".toList).bind fun s' =>
      (s'.facts.get? halfPast.factId).map FactRow.claim

lemma claimAgain_of_lossless {s : Store} {r : FactRow} (hid : r.factId = halfPast.factId)
    (h : Lossless sampleChrono s r [] promoteEnv "alice".toList "notes.md".toList) :
    claimAgain s = some r.claim := by
  obtain ⟨s', r', hs', hr', hsame⟩ := h
  rw [hid] at hs' hr'
  unfold claimAgain
  rw [hs', Option.bind_some, hr', Option.map_some, hsame]

/-- A fact written in the turn has no row in the queue, and keeps the exclusion. -/
theorem requeue_lossless_iff_writtenThenKept :
    ∃ trace t r, Run (step sampleChrono) nothing trace t ∧ r ∈ t.facts ∧
      r.excludedIds = [.user "bob".toList] ∧ ∀ now env wikiId pagePath,
        Lossless sampleChrono t r now env wikiId pagePath := by
  have hkept : (writtenThenKept.foldlM (step sampleChrono) nothing).any (fun t =>
      t.queue.rows = [] ∧ (t.facts.get? halfPast.factId).any fun r =>
        r.excludedIds = [.user "bob".toList] ∧ r.supersededAt = none ∧ r.deletedAt = none) =
      true := by
    decide +kernel
  obtain ⟨trace, t, hrun, htest⟩ := Run.exists_of_any hkept
  obtain ⟨hqueue, hfact⟩ := of_decide_eq_true htest
  obtain ⟨r, hr, hrow⟩ := (Option.any_eq_true _ _).mp hfact
  obtain ⟨hexcluded, hsuperseded, hdeleted⟩ := of_decide_eq_true hrow
  have hmem : r ∈ t.facts := (Sql.Table.get?_eq_some_iff.mp hr).1
  refine ⟨trace, t, r, hrun, hmem, hexcluded, ?_⟩
  intro now env wikiId pagePath
  rw [(requeue_lossless_iff sampleChrono hrun rfl).2 r hmem hsuperseded hdeleted]
  intro cap hcap
  have : cap ∈ t.queue.rows := hcap
  simp [hqueue] at this

/-- A fact that came from the queue forgets the exclusion. -/
theorem requeue_forgets_exclusion :
    ∃ trace t r, Run (step sampleChrono) nothing trace t ∧ r ∈ t.facts ∧ r.supersededAt = none ∧
      r.deletedAt = none ∧
      ¬ Lossless sampleChrono t r [] promoteEnv "alice".toList "notes.md".toList := by
  have hkept : (heardThenKept.foldlM (step sampleChrono) nothing).any (fun t =>
      (t.facts.get? halfPast.factId).any fun r =>
        r.supersededAt = none ∧ r.deletedAt = none ∧ claimAgain t ≠ some r.claim) = true := by
    decide +kernel
  obtain ⟨trace, t, hrun, htest⟩ := Run.exists_of_any hkept
  obtain ⟨r, hr, hrow⟩ := (Option.any_eq_true _ _).mp htest
  obtain ⟨hsuperseded, hdeleted, hforgets⟩ := of_decide_eq_true hrow
  obtain ⟨hmem, hid⟩ := Sql.Table.get?_eq_some_iff.mp hr
  refine ⟨trace, t, r, hrun, hmem, hsuperseded, hdeleted, ?_⟩
  intro hlossless
  exact hforgets (claimAgain_of_lossless hid hlossless)

end Store

end Mwe
