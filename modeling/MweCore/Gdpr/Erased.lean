import MweCore.Gdpr.Fate

/-!
# What an erasure erases

After the pass no row may name the person, and no row that the person said of themselves may keep
its text.  The excluded list is the axis that no statement strikes, of the active rows or of any
others; the rows that are not active are passed over on most axes, and a fact that is swept off a
page before its turn comes keeps all of them.

`CleanFact` and `CleanCapture` say of one row that none of this is so, and `forgetUser_erases_iff`
that the pass erases exactly when it is so of every row.
-/

namespace Mwe

open Str Sql

/-- A fact names a principal on some axis. -/
def FactRow.Names (p : Principal) (r : FactRow) : Prop :=
  r.subjectId = p ∨ r.senderId = some p ∨ p ∈ r.allowIds ∨ p ∈ r.excludedIds

/-- The access record of a fact says whom it names. -/
lemma FactRow.names_congr {p : Principal} {x y : FactRow} (h : x.acl = y.acl) :
    x.Names p ↔ y.Names p := by
  have hsubject : x.subjectId = y.subjectId := congrArg RegionAcl.subject h
  have hsender : x.senderId = y.senderId := congrArg RegionAcl.sender h
  have hallow : x.allowIds = y.allowIds := congrArg RegionAcl.allow h
  have hexcluded : x.excludedIds = y.excludedIds := congrArg RegionAcl.excluded h
  rw [FactRow.Names, FactRow.Names, hsubject, hsender, hallow, hexcluded]

/-- A claim of the queue names a principal on some axis. -/
def BufferedCapture.Names (p : Principal) (c : BufferedCapture) : Prop :=
  c.subject = p ∨ c.sender = some p ∨ p ∈ c.allow ∨ p ∈ c.excluded

namespace Gdpr

/-- No row names the person, and what they said of themselves is gone. -/
structure Erased (gone : Principal) (before after : Store) : Prop where
  facts : ∀ r ∈ after.facts, ¬ r.Names gone
  queue : ∀ c ∈ after.queue, ¬ c.Names gone
  texts : ∀ r ∈ before.facts, r.subjectId = gone → r.senderId = some gone →
    ∀ r' ∈ after.facts, r'.factId = r.factId → r'.text ≠ r.text
  bodies : ∀ c ∈ before.queue, c.subject = gone → c.sender = some gone →
    ∀ c' ∈ after.queue, c'.captureId = c.captureId → c'.body ≠ c.body

variable (a : Answers) (w : Deployment) (userId : Str)

/-- The ids of the wikis that go. -/
def hers : List Str := (herWikis w userId).map WikiNode.wikiId

/-- The sweep of a page on which a fact of the person was destroyed takes this one. -/
def Lost (r : FactRow) : Prop :=
  SweptBy a (hers w userId) userId (findActiveBySubject a w.store.facts (.user userId)) r

/-- The same, before the turn of this one comes. -/
def LostEarly (r : FactRow) : Prop :=
  SweptBy a (hers w userId) userId (earlier a userId w.store.facts r) r

/-- Whom a fact is about once it was handed over. -/
def heir (r : FactRow) : Principal :=
  match fateOf r (.user userId) with
  | .handOver keeper => keeper
  | _ => r.subjectId

/-- A fact goes back to the queue from a wiki of the person. -/
def GoesBack (r : FactRow) : Prop :=
  r.isActive = true ∧ fateOf r (.user userId) ≠ .destroy ∧ ¬ Lost a w userId r ∧
    r.wikiId ∈ hers w userId ∧
    (destinationWiki (hers w userId) w.wikis (heir userId r) = none ∨ a.refiled r.factId = none)

open scoped Classical in
/-- A fact that leaves no name of the person behind. -/
def CleanFact (r : FactRow) : Prop :=
  if r.isActive = true then
    if fateOf r (.user userId) = .destroy then
      r.wikiId ∈ hers w userId ∨ a.cut r.factId = true
    else if Lost a w userId r then
      -- whatever a sweep takes keeps the axes it had
      (r.subjectId = .user userId → ¬ LostEarly a w userId r) ∧
        r.senderId ≠ some (.user userId) ∧ .user userId ∉ r.allowIds ∧
        .user userId ∉ r.excludedIds
    else .user userId ∉ r.excludedIds ∨
      -- of a fact that goes back to a row in the queue that is there still, nothing is left
      (GoesBack a w userId r ∧ w.store.queue.get? r.factId ≠ none)
  else r.subjectId ≠ .user userId ∧ .user userId ∉ r.excludedIds ∧
    (r.deletedAt = none ∨ (r.senderId ≠ some (.user userId) ∧ .user userId ∉ r.allowIds))

/-- A claim of the queue that leaves no name of the person behind. -/
def CleanCapture (c : BufferedCapture) : Prop :=
  .user userId ∉ c.excluded ∨ alone (.user userId) c = true ∨
    (parked (.user userId) c = true ∧
      ¬ ∃ r, w.store.facts.get? c.captureId = some r ∧ GoesBack a w userId r)

/-! ## One fact -/

variable {a w userId} {now : Str}

/-- A fact as it stands when the wikis are emptied, unless it is gone or retired by then. -/
def readdressed (userId now : Str) (r : FactRow) : FactRow :=
  cleansed (.user userId) now <| match fateOf r (.user userId) with
    | .handOver keeper => r.retargeted keeper userId now
    | _ => r

lemma subject_ne_of_fateOf {r : FactRow} (hfate : fateOf r (.user userId) ≠ .destroy)
    (h : r.subjectId = .user userId) : ∃ keeper, fateOf r (.user userId) = .handOver keeper ∧
      r.senderId = some keeper ∧ keeper ≠ .user userId := by
  rcases fateOf_of_subject h with hdestroy | ⟨keeper, hkeeper, hsender, hne, -⟩
  · exact absurd hdestroy hfate
  · exact ⟨keeper, hkeeper, hsender, hne⟩

lemma fateOf_of_other {r : FactRow} (h : r.subjectId ≠ .user userId) :
    fateOf r (.user userId) = .disown ∨ fateOf r (.user userId) = .untouched := by
  unfold fateOf
  rw [if_neg h]
  split_ifs
  · exact Or.inl rfl
  · exact Or.inr rfl

/-- Taking a person off an active fact leaves them in its excluded list at most. -/
lemma cleansed_of_active (hremoved : removedSender ≠ .user userId) {r : FactRow}
    (hactive : r.isActive = true) :
    (cleansed (.user userId) now r).isActive = true ∧
      (cleansed (.user userId) now r).senderId ≠ some (.user userId) ∧
      .user userId ∉ (cleansed (.user userId) now r).allowIds := by
  obtain ⟨hsuperseded, hdeleted⟩ := isActive_iff.mp hactive
  obtain ⟨-, -, -, -, -, hsuperseded', hdeleted'⟩ := cleansed_spec (.user userId) now r
  obtain ⟨hsender, hallow⟩ := @cleansed_of_not_deleted now (.user userId) r hdeleted
  refine ⟨isActive_iff.mpr ⟨hsuperseded'.trans hsuperseded, hdeleted'.trans hdeleted⟩, ?_, ?_⟩
  · rw [hsender]
    split_ifs with hhers
    · exact fun heq => hremoved (Option.some.inj heq)
    · exact hhers
  · simp [hallow]

variable (now) in
/-- A fact that is still active names the person in its excluded list at most. -/
lemma readdressed_spec (hremoved : removedSender ≠ .user userId) {r : FactRow}
    (hactive : r.isActive = true) (hfate : fateOf r (.user userId) ≠ .destroy) :
    (readdressed userId now r).isActive = true ∧ (readdressed userId now r).factId = r.factId ∧
      (readdressed userId now r).wikiId = r.wikiId ∧
      (readdressed userId now r).subjectId = heir userId r ∧ heir userId r ≠ .user userId ∧
      (readdressed userId now r).senderId ≠ some (.user userId) ∧
      .user userId ∉ (readdressed userId now r).allowIds ∧
      (readdressed userId now r).excludedIds = r.excludedIds := by
  by_cases hsubject : r.subjectId = .user userId
  · obtain ⟨keeper, hkeeper, -, hne⟩ := subject_ne_of_fateOf hfate hsubject
    obtain ⟨hid, hwiki, -, habout, hexcluded, -⟩ :=
      cleansed_spec (.user userId) now (r.retargeted keeper userId now)
    obtain ⟨hlives, hsender, hallow⟩ :=
      @cleansed_of_active _ now hremoved (r.retargeted keeper userId now) hactive
    simp only [readdressed, heir, hkeeper]
    exact ⟨hlives, hid, hwiki, habout, hne, hsender, hallow, hexcluded⟩
  · obtain ⟨hid, hwiki, -, habout, hexcluded, -⟩ := cleansed_spec (.user userId) now r
    obtain ⟨hlives, hsender, hallow⟩ := @cleansed_of_active _ now hremoved r hactive
    rcases fateOf_of_other hsubject with hother | hother
    · simp only [readdressed, heir, hother]
      exact ⟨hlives, hid, hwiki, habout, hsubject, hsender, hallow, hexcluded⟩
    · simp only [readdressed, heir, hother]
      exact ⟨hlives, hid, hwiki, habout, hsubject, hsender, hallow, hexcluded⟩

/-- A fact of the person that is swept is swept by an older or by a younger one. -/
lemma lost_iff_of_subject {r : FactRow} (hr : r ∈ w.store.facts) (hactive : r.isActive = true)
    (hsubject : r.subjectId = .user userId) (hfate : fateOf r (.user userId) ≠ .destroy) :
    Lost a w userId r ↔ LostEarly a w userId r ∨
      SweptBy a (hers w userId) userId (later a userId w.store.facts r) r := by
  have hlisted : r ∈ findActiveBySubject a w.store.facts (.user userId) :=
    mem_findActiveBySubject_iff.mpr ⟨hr, hsubject, hactive⟩
  have hself : ¬ Sweeps a (hers w userId) userId r r := fun h => hfate h.1
  unfold Lost LostEarly
  rw [(findActiveBySubject_split hlisted).1]
  simp [SweptBy, hself, or_and_right, exists_or]

/-- What the first three steps make of a fact that is active and stays so. -/
lemma settled_of_lasting {r : FactRow} (hr : r ∈ w.store.facts) (hactive : r.isActive = true)
    (hfate : fateOf r (.user userId) ≠ .destroy) (hlost : ¬ Lost a w userId r) :
    (settled a (hers w userId) now userId w.store.facts r).map (cleansed (.user userId) now) =
      some (readdressed userId now r) := by
  by_cases hsubject : r.subjectId = .user userId
  · obtain ⟨keeper, hkeeper, -⟩ := subject_ne_of_fateOf hfate hsubject
    rw [lost_iff_of_subject hr hactive hsubject hfate, not_or] at hlost
    have hearly : ¬ SweptBy a (hers w userId) userId (earlier a userId w.store.facts r) r := hlost.1
    simp only [settled, hsubject, hactive, hkeeper, readdressed, hearly, hlost.2, if_false]
    rfl
  · have hstays : ¬ SweptBy a (hers w userId) userId
        (findActiveBySubject a w.store.facts (.user userId)) r := hlost
    have hreaddressed : readdressed userId now r = cleansed (.user userId) now r := by
      rcases fateOf_of_other hsubject with hother | hother
      · simp [readdressed, hother]
      · simp [readdressed, hother]
    simp [settled, hsubject, hstays, hreaddressed]

variable (now) in
/-- What the first step makes of a fact that is swept off a page. -/
lemma settled_of_lost {r : FactRow} (hr : r ∈ w.store.facts) (hactive : r.isActive = true)
    (hfate : fateOf r (.user userId) ≠ .destroy) (hlost : Lost a w userId r) :
    ∃ r', settled a (hers w userId) now userId w.store.facts r = some r' ∧ r'.deletedAt ≠ none ∧
      (¬ r'.Names (.user userId) ↔ (r.subjectId = .user userId → ¬ LostEarly a w userId r) ∧
        r.senderId ≠ some (.user userId) ∧ .user userId ∉ r.allowIds ∧
          .user userId ∉ r.excludedIds) := by
  by_cases hsubject : r.subjectId = .user userId
  · obtain ⟨keeper, hkeeper, hsender, hne⟩ := subject_ne_of_fateOf hfate hsubject
    by_cases hearly : LostEarly a w userId r
    · have hearly' : SweptBy a (hers w userId) userId (earlier a userId w.store.facts r) r := hearly
      refine ⟨swept now r, by simp [settled, hsubject, hactive, hkeeper, hearly'], by simp [swept],
        ?_⟩
      simp [FactRow.Names, swept, FactRow.forgotten, hsubject, hearly]
    · have hearly' : ¬ SweptBy a (hers w userId) userId (earlier a userId w.store.facts r) r :=
        hearly
      have hlate := ((lost_iff_of_subject hr hactive hsubject hfate).mp hlost).resolve_left hearly
      refine ⟨swept now (r.retargeted keeper userId now),
        by simp [settled, hsubject, hactive, hkeeper, hearly', hlate], by simp [swept], ?_⟩
      simp [FactRow.Names, swept, FactRow.forgotten, FactRow.retargeted, hsender, hne, hearly]
  · have hlost' : SweptBy a (hers w userId) userId
        (findActiveBySubject a w.store.facts (.user userId)) r := hlost
    refine ⟨swept now r, by simp [settled, hsubject, hlost'], by simp [swept], ?_⟩
    simp [FactRow.Names, swept, FactRow.forgotten, hsubject]

/-- What the first step makes of a fact that is to be destroyed. -/
lemma settled_of_destroy {r : FactRow} (hactive : r.isActive = true)
    (hfate : fateOf r (.user userId) = .destroy) :
    (settled a (hers w userId) now userId w.store.facts r = none ∧
        (r.wikiId ∈ hers w userId ∨ a.cut r.factId = true)) ∨
      ∃ r', settled a (hers w userId) now userId w.store.facts r = some r' ∧ r'.deletedAt ≠ none ∧
        r'.Names (.user userId) ∧ ¬ (r.wikiId ∈ hers w userId ∨ a.cut r.factId = true) := by
  have hsubject : r.subjectId = .user userId := by
    by_contra hother
    rcases fateOf_of_other hother with h | h
    · rw [h] at hfate
      cases hfate
    · rw [h] at hfate
      cases hfate
  by_cases hout : r.wikiId ∈ hers w userId ∨ a.cut r.factId = true
  · exact Or.inl ⟨by simp [settled, hsubject, hactive, hfate, hout], hout⟩
  · refine Or.inr ?_
    by_cases hearly : SweptBy a (hers w userId) userId (earlier a userId w.store.facts r) r
    · exact ⟨swept now r, by simp [settled, hsubject, hactive, hfate, hout, hearly],
        by simp [swept], Or.inl hsubject, hout⟩
    · exact ⟨r.forgotten forgetReason now,
        by simp [settled, hsubject, hactive, hfate, hout, hearly], by simp, Or.inl hsubject, hout⟩

/-- The first step passes over a fact that is not active. -/
lemma settled_of_retired {r : FactRow} (hretired : r.isActive = false) :
    settled a (hers w userId) now userId w.store.facts r = some r := by
  have hstays : ¬ SweptBy a (hers w userId) userId
      (findActiveBySubject a w.store.facts (.user userId)) r := by
    rintro ⟨x, -, -, -, hactive, -⟩
    simp [hretired] at hactive
  simp [settled, hretired, hstays]

/-! ## What is held of an id -/

/-- The queue's part of the pass. -/
def struck (userId : Str) (c : Option BufferedCapture) : Option BufferedCapture :=
  c.bind fun c => if dropped (.user userId) c = true then none else some (kept userId c)

/-- A fact that is deleted in the first step. -/
lemma passed_of_none {r : FactRow} (c : Option BufferedCapture)
    (h : settled a (hers w userId) now userId w.store.facts r = none) :
    passed a now w userId (some r, c) = (none, struck userId c) := by
  have h' : settled a ((herWikis w userId).map WikiNode.wikiId) now userId w.store.facts r = none :=
    h
  simp [passed, h', departed, struck]

/-- A fact that is not active once the first step is done. -/
lemma passed_of_retired {r r' : FactRow} (c : Option BufferedCapture)
    (h : settled a (hers w userId) now userId w.store.facts r = some r')
    (hretired : r'.isActive = false) :
    passed a now w userId (some r, c) =
      (some (buried (hers w userId) now (cleansed (.user userId) now r')), struck userId c) := by
  have h' : settled a ((herWikis w userId).map WikiNode.wikiId) now userId w.store.facts r =
    some r' := h
  have hstill : (cleansed (.user userId) now r').isActive = false := by
    obtain ⟨-, -, -, -, -, hsuperseded, hdeleted⟩ := cleansed_spec (.user userId) now r'
    rw [← hretired]
    simp [FactRow.isActive, hsuperseded, hdeleted]
  simp [passed, h', departed, struck, hstill, hers]

/-- The removal of the wikis changes no name. -/
@[simp] lemma names_buried_iff {gone : Principal} (hers : List Str) (r : FactRow) :
    (buried hers now r).Names gone ↔ r.Names gone := by
  unfold buried
  split_ifs
  · rfl
  · rfl

lemma landing_eq_none_iff {hers : List Str} {wikis : List WikiNode} {x : FactRow} :
    landing a hers wikis x = none ↔
      destinationWiki hers wikis x.subjectId = none ∨ a.refiled x.factId = none := by
  unfold landing
  cases destinationWiki hers wikis x.subjectId <;> cases a.refiled x.factId <;> simp

/-- A fact that is active once the first three steps are done, and goes back to the queue. -/
lemma passed_of_goesBack (hremoved : removedSender ≠ .user userId) {r : FactRow}
    (c : Option BufferedCapture) (hr : r ∈ w.store.facts) (h : GoesBack a w userId r) :
    passed a now w userId (some r, c) = (none, struck userId (some
      (c.elim ((readdressed userId now r).rebuffered now) BufferedCapture.requeued))) := by
  obtain ⟨hactive, hfate, hlost, hwiki, hnowhere⟩ := h
  obtain ⟨hlives, hid, hwiki', hsubject, -⟩ := readdressed_spec now hremoved hactive hfate
  have hsettled : ((settled a ((herWikis w userId).map WikiNode.wikiId) now userId w.store.facts
      r).map (cleansed (.user userId) now)) = some (readdressed userId now r) :=
    settled_of_lasting hr hactive hfate hlost
  have hlanding : landing a (hers w userId) w.wikis (readdressed userId now r) = none := by
    rw [landing_eq_none_iff, hsubject, hid]
    exact hnowhere
  have hleaves : (readdressed userId now r).wikiId ∈ hers w userId := by rwa [hwiki']
  unfold hers at hlanding hleaves
  simp [passed, hsettled, departed, hlives, hleaves, evacuated, requeuedAs, hlanding, struck]

variable (now) in
/-- A fact that is active once the first three steps are done, and stays in the index. -/
lemma passed_of_stays (hremoved : removedSender ≠ .user userId) {r : FactRow}
    (c : Option BufferedCapture) (hr : r ∈ w.store.facts) (hactive : r.isActive = true)
    (hfate : fateOf r (.user userId) ≠ .destroy) (hlost : ¬ Lost a w userId r)
    (h : ¬ GoesBack a w userId r) :
    ∃ r', passed a now w userId (some r, c) = (some r', struck userId c) ∧ r'.isActive = true ∧
      r'.text = (readdressed userId now r).text ∧ r'.acl = (readdressed userId now r).acl := by
  obtain ⟨hlives, hid, hwiki, hsubject, -⟩ := readdressed_spec now hremoved hactive hfate
  have hsettled : ((settled a ((herWikis w userId).map WikiNode.wikiId) now userId w.store.facts
      r).map (cleansed (.user userId) now)) = some (readdressed userId now r) :=
    settled_of_lasting hr hactive hfate hlost
  have hunburied : ∀ {x : FactRow}, x.wikiId ∉ hers w userId →
      buried ((herWikis w userId).map WikiNode.wikiId) now x = x := by
    intro x hx
    exact if_neg fun h => hx h.1
  by_cases hout : r.wikiId ∈ hers w userId
  · have hplace : landing a (hers w userId) w.wikis (readdressed userId now r) ≠ none := by
      intro hnowhere
      rw [landing_eq_none_iff, hsubject, hid] at hnowhere
      exact h ⟨hactive, hfate, hlost, hout, hnowhere⟩
    obtain ⟨l, hlanding⟩ := Option.ne_none_iff_exists'.mp hplace
    have hleaves : (readdressed userId now r).wikiId ∈ hers w userId := by rwa [hwiki]
    have hmoved := @hunburied ((readdressed userId now r).moved l.1 l.2 now) (landing_notMem hlanding)
    refine ⟨(readdressed userId now r).moved l.1 l.2 now, ?_, hlives, rfl, rfl⟩
    unfold hers at hlanding hleaves
    simp [passed, hsettled, departed, hlives, hleaves, evacuated, requeuedAs, hlanding, struck,
      hmoved]
  · have hstays : (readdressed userId now r).wikiId ∉ hers w userId := by rwa [hwiki]
    have hkept := hunburied hstays
    refine ⟨readdressed userId now r, ?_, hlives, rfl, rfl⟩
    unfold hers at hstays
    simp [passed, hsettled, departed, hstays, struck, hkept]

/-- What stays in the queue. -/
lemma struck_names_iff (hremoved : removedSender ≠ .user userId) (c : BufferedCapture) :
    (∀ c', struck userId (some c) = some c' → ¬ c'.Names (.user userId)) ↔
      dropped (.user userId) c = true ∨ .user userId ∉ c.excluded := by
  cases hdropped : dropped (.user userId) c with
  | true => simp [struck, hdropped]
  | false =>
    obtain ⟨-, -, hexcluded, hsubject, hsender, hallow⟩ := kept_spec hremoved hdropped
    simp [struck, hdropped, BufferedCapture.Names, hexcluded, hsubject, hsender, hallow]

/-- What is left under one id names the person nowhere. -/
def Unnamed (gone : Principal) (p : Held) : Prop :=
  (∀ r, p.1 = some r → ¬ r.Names gone) ∧ ∀ c, p.2 = some c → ¬ c.Names gone

/-- The queue's part, where no fact goes back to the row. -/
lemma struck_unnamed_iff (hremoved : removedSender ≠ .user userId) {k : FactId}
    (hback : ¬ ∃ r, w.store.facts.get? k = some r ∧ GoesBack a w userId r) :
    (∀ c, struck userId (w.store.queue.get? k) = some c → ¬ c.Names (.user userId)) ↔
      ∀ c, w.store.queue.get? k = some c → CleanCapture a w userId c := by
  cases hget : w.store.queue.get? k with
  | none => simp [struck]
  | some c =>
    have hid : c.captureId = k := (Table.get?_eq_some_iff.mp hget).2
    rw [struck_names_iff hremoved]
    simp only [Option.some.injEq, forall_eq', CleanCapture, hid, hback, dropped, Bool.or_eq_true]
    tauto

variable (now) in
/-- The fact's part, of a fact that does not go back to the queue. -/
lemma passed_fst_iff (hremoved : removedSender ≠ .user userId) {r : FactRow}
    (c : Option BufferedCapture) (hr : r ∈ w.store.facts) (hback : ¬ GoesBack a w userId r) :
    ((∀ r', (passed a now w userId (some r, c)).1 = some r' → ¬ r'.Names (.user userId)) ↔
        CleanFact a w userId r) ∧
      (passed a now w userId (some r, c)).2 = struck userId c := by
  have hdeleted : ∀ {x : FactRow}, x.deletedAt ≠ none → x.isActive = false := by
    intro x hx
    rw [Bool.eq_false_iff]
    exact fun hactive => hx (isActive_iff.mp hactive).2
  unfold CleanFact
  by_cases hactive : r.isActive = true
  · rw [if_pos hactive]
    by_cases hfate : fateOf r (.user userId) = .destroy
    · rw [if_pos hfate]
      rcases @settled_of_destroy a w userId now r hactive hfate with
        ⟨hnone, hout⟩ | ⟨x, hx, htomb, hnames, hstays⟩
      · rw [passed_of_none c hnone]
        simp [hout]
      · rw [passed_of_retired c hx (hdeleted htomb), cleansed_of_deleted htomb]
        simp [hnames, hstays]
    · rw [if_neg hfate]
      by_cases hlost : Lost a w userId r
      · obtain ⟨x, hx, htomb, hnames⟩ := settled_of_lost now hr hactive hfate hlost
        rw [if_pos hlost, passed_of_retired c hx (hdeleted htomb), cleansed_of_deleted htomb]
        simpa using hnames
      · obtain ⟨x, hx, -, -, hacl⟩ := passed_of_stays now hremoved c hr hactive hfate hlost
          hback
        have hnames : x.Names (.user userId) ↔ .user userId ∈ r.excludedIds := by
          obtain ⟨-, -, -, hsubject, hne, hsender, hallow, hexcluded⟩ :=
            readdressed_spec now hremoved hactive hfate
          rw [FactRow.names_congr hacl, FactRow.Names, hsubject, hexcluded]
          tauto
        rw [if_neg hlost, hx]
        simp [hnames, hback]
  · rw [if_neg hactive]
    have hretired : r.isActive = false := Bool.eq_false_iff.mpr hactive
    rw [passed_of_retired c (settled_of_retired hretired) hretired]
    refine ⟨?_, rfl⟩
    by_cases htomb : r.deletedAt = none
    · obtain ⟨-, -, -, hsubject, hexcluded, -⟩ := cleansed_spec (.user userId) now r
      obtain ⟨hsender, hallow⟩ := @cleansed_of_not_deleted now (.user userId) r htomb
      have hauthor : (cleansed (.user userId) now r).senderId ≠ some (.user userId) := by
        rw [hsender]
        split_ifs with hhers
        · exact fun heq => hremoved (Option.some.inj heq)
        · exact hhers
      simp only [Option.some.injEq, forall_eq', names_buried_iff]
      simp [FactRow.Names, hsubject, hexcluded, hauthor, hallow, htomb]
    · rw [cleansed_of_deleted htomb]
      simp only [Option.some.injEq, forall_eq', names_buried_iff]
      simp only [FactRow.Names, htomb, false_or]
      tauto

/-- What is left under one id. -/
theorem unnamed_passed_iff (hremoved : removedSender ≠ .user userId) (k : FactId) :
    Unnamed (.user userId) (passed a now w userId (heldAt w.store k)) ↔
      (∀ r, w.store.facts.get? k = some r → CleanFact a w userId r) ∧
        ∀ c, w.store.queue.get? k = some c → CleanCapture a w userId c := by
  unfold heldAt
  cases hget : w.store.facts.get? k with
  | none =>
    have hback : ¬ ∃ r, w.store.facts.get? k = some r ∧ GoesBack a w userId r := by simp [hget]
    have hpassed : passed a now w userId (none, w.store.queue.get? k) =
        (none, struck userId (w.store.queue.get? k)) := rfl
    rw [hpassed, Unnamed, ← struck_unnamed_iff hremoved hback]
    simp
  | some r =>
    obtain ⟨hr, rfl⟩ := Table.get?_eq_some_iff.mp hget
    by_cases hback : GoesBack a w userId r
    · obtain ⟨hactive, hfate, hlost, -⟩ := id hback
      obtain ⟨-, -, -, hsubject, hne, hsender, hallow, hexcluded⟩ :=
        readdressed_spec now hremoved hactive hfate
      have hfact : CleanFact a w userId r ↔ .user userId ∉ r.excludedIds ∨
          w.store.queue.get? r.factId ≠ none := by
        simp [CleanFact, hactive, hfate, hlost, hback]
      rw [passed_of_goesBack hremoved _ hr hback, Unnamed]
      simp only [struck_names_iff hremoved, Option.some.injEq, forall_eq', hfact]
      cases hqueue : w.store.queue.get? r.factId with
      | none =>
        have hstays : dropped (.user userId) ((readdressed userId now r).rebuffered now) = false := by
          simp [dropped, parked, alone, FactRow.rebuffered, hsubject, hne]
        have hsame : ((readdressed userId now r).rebuffered now).excluded = r.excludedIds :=
          hexcluded
        simp [hstays, hsame]
      | some c =>
        have hid : c.captureId = r.factId := (Table.get?_eq_some_iff.mp hqueue).2
        have hdropped : dropped (.user userId) c.requeued = alone (.user userId) c := rfl
        have hsame : c.requeued.excluded = c.excluded := rfl
        have hthere : ∃ x, w.store.facts.get? c.captureId = some x ∧ GoesBack a w userId x :=
          ⟨r, by rwa [hid], hback⟩
        simp only [Option.elim_some, hdropped, hsame, CleanCapture, hthere, Option.some.injEq,
          forall_eq']
        simp [or_comm]
    · have hnone : ¬ ∃ x, w.store.facts.get? r.factId = some x ∧ GoesBack a w userId x := by
        rintro ⟨x, hx, hgoes⟩
        rw [hget] at hx
        obtain rfl := Option.some.inj hx
        exact hback hgoes
      obtain ⟨hfact, hqueue⟩ := passed_fst_iff now hremoved (w.store.queue.get? r.factId)
        hr hback
      rw [Unnamed, hfact, hqueue, struck_unnamed_iff hremoved hnone]
      simp

/-! ## The whole pass -/

/-- Nobody who is enrolled has the id that stands for those who are gone. -/
lemma removedSender_ne {w' : Deployment} (h : forgetUser a now w userId = some w') :
    removedSender ≠ .user userId := by
  obtain ⟨user, hget, -⟩ := Option.bind_eq_some_iff.mp h
  obtain ⟨hmem, hid⟩ := Table.get?_eq_some_iff.mp hget
  have hvalid := w.enrolled user hmem
  intro heq
  rw [hid, ← Principal.user.inj heq] at hvalid
  exact absurd hvalid (by decide)

/-- What the person said of themselves is gone once no row names them. -/
lemma texts_gone {w' : Deployment} (h : forgetUser a now w userId = some w')
    (hfacts : ∀ r ∈ w.store.facts, CleanFact a w userId r) :
    ∀ r ∈ w.store.facts, r.subjectId = .user userId → r.senderId = some (.user userId) →
      ∀ r' ∈ w'.store.facts, r'.factId ≠ r.factId := by
  intro r hr hsubject hsender r' hr' hid
  have hclean := hfacts r hr
  have hfate : fateOf r (.user userId) = .destroy := by
    rcases fateOf_of_subject hsubject with hdestroy | ⟨keeper, -, hkeeper, hne, -⟩
    · exact hdestroy
    · rw [hsender] at hkeeper
      exact absurd (Option.some.inj hkeeper).symm hne
  unfold CleanFact at hclean
  by_cases hactive : r.isActive = true
  · rw [if_pos hactive, if_pos hfate] at hclean
    have hnone : settled a (hers w userId) now userId w.store.facts r = none := by
      simp [settled, hsubject, hactive, hfate, hclean]
    have hheld := heldAt_forgetUser h r.factId
    have hbefore : heldAt w.store r.factId = (some r, w.store.queue.get? r.factId) :=
      Prod.ext (Table.get?_eq_some_iff.mpr ⟨hr, rfl⟩) rfl
    rw [hbefore, passed_of_none _ hnone] at hheld
    exact Table.get?_eq_none_iff.mp (congrArg Prod.fst hheld) r' hr' hid
  · rw [if_neg hactive] at hclean
    exact hclean.1 hsubject

/-- A row of the queue stays, or is queued again, when the wikis are emptied. -/
lemma departed_snd {wikis : List WikiNode} {hers ws : List Str} (f : Option FactRow)
    (c : BufferedCapture) : (departed a hers now wikis ws (f, some c)).2 = some c ∨
      (departed a hers now wikis ws (f, some c)).2 = some c.requeued := by
  cases f with
  | none => exact Or.inl rfl
  | some x =>
    simp only [departed]
    split_ifs
    · simp only [requeuedAs]
      split_ifs
      · exact Or.inl rfl
      · exact Or.inr rfl
    · exact Or.inl rfl

/-- The same of what waits in the queue. -/
lemma bodies_gone {w' : Deployment} (h : forgetUser a now w userId = some w') :
    ∀ c ∈ w.store.queue, c.subject = .user userId → c.sender = some (.user userId) →
      ∀ c' ∈ w'.store.queue, c'.captureId ≠ c.captureId := by
  intro c hc hsubject hsender c' hc' hid
  have halone : alone (.user userId) c = true := by simp [alone, hsubject, hsender]
  have hbefore : heldAt w.store c.captureId = (w.store.facts.get? c.captureId, some c) :=
    Prod.ext rfl (Table.get?_eq_some_iff.mpr ⟨hc, rfl⟩)
  have hnone : (passed a now w userId (w.store.facts.get? c.captureId, some c)).2 = none := by
    simp only [passed]
    rcases @departed_snd a now w.wikis _ _ _ c with hleft | hleft
    · rw [hleft]
      simp [dropped, halone]
    · have halone' : alone (.user userId) c.requeued = true := halone
      rw [hleft]
      simp [dropped, halone']
  have hheld := congrArg Prod.snd (heldAt_forgetUser h c.captureId)
  rw [hbefore, hnone] at hheld
  exact Table.get?_eq_none_iff.mp hheld c' hc' hid

/-- An erasure erases exactly when every fact and every claim is one that it cleans. -/
theorem forgetUser_erases_iff (a : Answers) (now userId : Str) (w w' : Deployment)
    (h : forgetUser a now w userId = some w') :
    Erased (.user userId) w.store w'.store ↔
      (∀ r ∈ w.store.facts, CleanFact a w userId r) ∧
        ∀ c ∈ w.store.queue, CleanCapture a w userId c := by
  have hremoved := removedSender_ne h
  have hat : (∀ k, Unnamed (.user userId) (heldAt w'.store k)) ↔
      (∀ r ∈ w.store.facts, CleanFact a w userId r) ∧
        ∀ c ∈ w.store.queue, CleanCapture a w userId c := by
    simp only [heldAt_forgetUser h, unnamed_passed_iff hremoved, Table.get?_eq_some_iff]
    constructor
    · intro hall
      exact ⟨fun r hr => (hall r.factId).1 r ⟨hr, rfl⟩,
        fun c hc => (hall c.captureId).2 c ⟨hc, rfl⟩⟩
    · rintro ⟨hfacts, hqueue⟩ k
      exact ⟨fun r hr => hfacts r hr.1, fun c hc => hqueue c hc.1⟩
  constructor
  · intro herased
    rw [← hat]
    intro k
    exact ⟨fun r hr => herased.facts r (Table.get?_eq_some_iff.mp hr).1,
      fun c hc => herased.queue c (Table.get?_eq_some_iff.mp hc).1⟩
  · intro hclean
    have hunnamed := hat.mpr hclean
    exact
      { facts := fun r hr => (hunnamed r.factId).1 r (Table.get?_eq_some_iff.mpr ⟨hr, rfl⟩)
        queue := fun c hc => (hunnamed c.captureId).2 c (Table.get?_eq_some_iff.mpr ⟨hc, rfl⟩)
        texts := fun r hr hsubject hsender r' hr' hid =>
          absurd hid (texts_gone h hclean.1 r hr hsubject hsender r' hr')
        bodies := fun c hc hsubject hsender c' hc' hid =>
          absurd hid (bodies_gone h c hc hsubject hsender c' hc') }

/-! ## A household -/

/-- What Alice said of herself. -/
def ownFact : FactRow where
  factId := ⟨"018f1234-5678-7abc-9def-0123456789cd".toList, by decide⟩
  wikiId := "alice".toList
  sourcePath := "users/alice/notes.md".toList
  text := "I am allergic to nuts.".toList
  subjectId := .user "alice".toList
  senderId := some (.user "alice".toList)
  factType := none
  validFrom := none
  validTo := none
  updatedAt := []

/-- What Bruno said of himself, and would not have Alice read. -/
def shieldedFact : FactRow where
  factId := ⟨"018f1234-5678-7abc-9def-0123456789ce".toList, by decide⟩
  wikiId := "bruno".toList
  sourcePath := "users/bruno/notes.md".toList
  text := "I am planning her party.".toList
  subjectId := .user "bruno".toList
  senderId := some (.user "bruno".toList)
  excludedIds := [.user "alice".toList]
  factType := none
  validFrom := none
  validTo := none
  updatedAt := []

/-- Alice and Bruno, each with a wiki, and one fact. -/
def household (r : FactRow) : Deployment where
  store := { facts := ⟨[r], by simp⟩, queue := Table.empty _ }
  users := ⟨[{ userId := "alice".toList, isAdmin := false }], by simp⟩
  enrolled := by
    intro u hu
    obtain rfl := List.mem_singleton.mp hu
    decide
  groups := []
  wikis := [⟨"alice".toList, "wiki-user".toList, ["users".toList, "alice".toList], false⟩,
    ⟨"bruno".toList, "wiki-user".toList, ["users".toList, "bruno".toList], false⟩]
  trash := []

/-- A disk on which every region can be cut. -/
def orderly : Answers where
  createdAt := fun _ => []
  cut := fun _ => true
  missing := fun _ => []
  refiled := fun _ => none

lemma household_erased : ∃ w', forgetUser orderly [] (household ownFact) "alice".toList = some w' ∧
    Erased (.user "alice".toList) (household ownFact).store w'.store := by
  obtain ⟨w', hw'⟩ := Option.isSome_iff_exists.mp
    (by decide +kernel : (forgetUser orderly [] (household ownFact) "alice".toList).isSome = true)
  refine ⟨w', hw', ?_⟩
  rw [forgetUser_erases_iff orderly [] "alice".toList (household ownFact) w' hw']
  constructor
  · intro r hr
    obtain rfl : r = ownFact := List.mem_singleton.mp hr
    have hactive : ownFact.isActive = true := rfl
    have hfate : fateOf ownFact (.user "alice".toList) = .destroy := by decide
    rw [CleanFact, if_pos hactive, if_pos hfate]
    exact Or.inr rfl
  · intro c hc
    exact absurd hc (Table.not_mem_empty c)

/-- A fact that says it is not for her to read says so when she is forgotten. -/
theorem shielded_fact_names_her : ∃ w',
    forgetUser orderly [] (household shieldedFact) "alice".toList = some w' ∧
      ¬ Erased (.user "alice".toList) (household shieldedFact).store w'.store := by
  have hnamed : (forgetUser orderly [] (household shieldedFact) "alice".toList).any (fun w' =>
      w'.store.facts.rows.any fun r => r.excludedIds.elem (.user "alice".toList)) = true := by
    decide +kernel
  obtain ⟨w', hw', hrow⟩ := (Option.any_eq_true _ _).mp hnamed
  obtain ⟨r, hr, hexcluded⟩ := List.any_eq_true.mp hrow
  refine ⟨w', hw', fun herased => herased.facts r hr ?_⟩
  exact Or.inr (Or.inr (Or.inr (List.mem_of_elem_eq_true hexcluded)))

end Gdpr

end Mwe
