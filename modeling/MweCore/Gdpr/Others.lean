import MweCore.Gdpr.Erased
import MweCore.Acl.Readership
import MweCore.Ingest.Weld

/-!
# What an erasure does to others

A fact of which the person is neither the subject nor the author keeps its text and its readers,
the person apart, and the wikis that go are the person's own.  Two things are not so.  A page on
which a fact of the person was destroyed is read again, and whatever has lost its marker there is
retired, whosever it is; and the trash is searched for names that begin with the id of the person
and a dash, as the ids of others may.

`forgetUser_spares_iff` says when neither comes to pass.  A fact that goes back to the queue onto
its old row is what that row says, so the two have to agree.
-/

namespace Mwe

open Str Sql

namespace Gdpr

/-- Two records are read by the same people, the person apart. -/
def SameReaders (userId : Str) (x y : RegionAcl) : Prop :=
  ∀ reader groups, isValidUserId reader = true → reader ≠ userId →
    (rowReadableBy x reader groups = true ↔ rowReadableBy y reader groups = true)

/-- What is held of an id still says what a fact said, to those it said it to. -/
def Spared (userId : Str) (r : FactRow) (p : Held) : Prop :=
  (∃ r', p.1 = some r' ∧ (r.isActive = true → r'.isActive = true) ∧ r'.text = r.text ∧
      SameReaders userId r'.acl r.acl) ∨
    (p.1 = none ∧ ∃ c, p.2 = some c ∧ c.status = .buffered ∧ c.body = r.text ∧
      SameReaders userId c.acl r.acl)

/-- The facts of others keep their text and their readers, and no directory of theirs goes. -/
structure SparesOthers (userId : Str) (before after : Deployment) : Prop where
  facts : ∀ r ∈ before.store.facts, r.subjectId ≠ .user userId → r.senderId ≠ some (.user userId) →
    Spared userId r (heldAt after.store r.factId)
  wikis : ∀ d ∈ before.wikis,
    (∀ own ∈ before.wikis, own.wikiId = userId → ¬ own.relDir <+: d.relDir) → d ∈ after.wikis
  trash : ∀ dir ∈ before.trash, dir.root ≠ userId → dir ∈ after.trash

variable {a : Answers} {w : Deployment} {userId now : Str}

/-! ## Readers -/

lemma SameReaders.refl (x : RegionAcl) : SameReaders userId x x := fun _ _ _ _ => Iff.rfl

/-- Records that differ in the person, and in the name of those who are gone, have the same
readers. -/
lemma sameReaders_of_opens {x y : RegionAcl} (hexcluded : x.excluded = y.excluded)
    (h : ∀ p, p ≠ .user userId → p ≠ removedSender → (p ∈ x.named ↔ p ∈ y.named)) :
    SameReaders userId x y := by
  intro reader groups hvalid hne
  have hothers : ∀ p ∈ Holds reader groups, p ≠ .user userId ∧ p ≠ removedSender := by
    rintro p (rfl | rfl | ⟨g, -, rfl⟩)
    · exact ⟨nofun, nofun⟩
    · refine ⟨fun heq => hne (Principal.user.inj heq), fun heq => ?_⟩
      rw [Principal.user.inj heq] at hvalid
      exact absurd hvalid (by decide)
    · exact ⟨nofun, nofun⟩
  rw [RegionAcl.readable_iff, RegionAcl.readable_iff, hexcluded]
  refine and_congr_right fun _ => exists_congr fun p => and_congr_right fun hp => ?_
  obtain ⟨hgone, hremoved⟩ := hothers p hp
  rw [RegionAcl.mem_openers, RegionAcl.mem_openers, hexcluded, h p hgone hremoved]

/-- Taking the person off a fact of somebody else. -/
lemma sameReaders_cleansed {r : FactRow} :
    SameReaders userId (cleansed (.user userId) now r).acl r.acl := by
  obtain ⟨-, -, -, hsubject, hexcluded, -⟩ := cleansed_spec (.user userId) now r
  by_cases hdeleted : r.deletedAt = none
  · obtain ⟨hsender, hallow⟩ := @cleansed_of_not_deleted now (.user userId) r hdeleted
    refine sameReaders_of_opens hexcluded fun p hgone hremoved => ?_
    simp only [RegionAcl.mem_named, FactRow.acl, hsubject, hsender, hallow]
    split_ifs with hhers
    · simp [hhers, hgone, Ne.symm hgone, Ne.symm hremoved]
    · simp [hgone]
  · rw [cleansed_of_deleted hdeleted]
    exact SameReaders.refl _

/-- Taking the person off a claim that stays in the queue. -/
lemma sameReaders_kept {c : BufferedCapture} (h : alone (.user userId) c = false) :
    SameReaders userId (kept userId c).acl c.acl := by
  have hexcluded : (kept userId c).excluded = c.excluded := by
    unfold kept
    dsimp only
    split_ifs <;> rfl
  refine sameReaders_of_opens hexcluded fun p hgone hremoved => ?_
  have hallow : p ∈ (kept userId c).allow ↔ p ∈ c.allow := by
    unfold kept
    dsimp only
    split_ifs <;> simp [hgone]
  have hopens : (kept userId c).subject = p ∨ (kept userId c).sender = some p ↔
      c.subject = p ∨ c.sender = some p := by
    have hkept : (kept userId c).subject = (if (decide (c.subject = .user userId) &&
        c.sender.any fun s => s ≠ .user userId && s ≠ removedSender) = true
          then c.sender.getD c.subject else c.subject) ∧
        (kept userId c).sender =
          if c.sender = some (.user userId) then some removedSender else c.sender := by
      unfold kept
      dsimp only
      constructor <;> split_ifs <;> simp_all
    rw [hkept.1, hkept.2]
    cases hsender : c.sender with
    | none => simp
    | some s =>
      by_cases hs : s = .user userId
      · simp [hs, Ne.symm hgone, Ne.symm hremoved]
      · by_cases hsubject : c.subject = .user userId
        · have hs' : s ≠ removedSender := by
            rintro rfl
            simp [alone, hsubject, hsender] at h
          simp [hs, hs', hsubject, Ne.symm hgone]
        · simp [hs, hsubject]
  simp only [RegionAcl.mem_named, BufferedCapture.acl, hallow]
  tauto

/-! ## One fact -/

/-- The removal of the wikis changes no text and no reader. -/
lemma buried_spec (hers : List Str) (r : FactRow) :
    (buried hers now r).text = r.text ∧ (buried hers now r).acl = r.acl := by
  unfold buried
  split_ifs
  · exact ⟨rfl, rfl⟩
  · exact ⟨rfl, rfl⟩

/-- What a claim that stays in the queue keeps. -/
lemma kept_keeps (c : BufferedCapture) :
    (kept userId c).status = c.status ∧ (kept userId c).body = c.body := by
  unfold kept
  dsimp only
  split_ifs <;> exact ⟨rfl, rfl⟩

/-- What a fact of somebody else has to be spared. -/
def SparedWhen (a : Answers) (w : Deployment) (userId : Str) (r : FactRow) : Prop :=
  r.isActive = true → ¬ Lost a w userId r ∧
    (GoesBack a w userId r → ∀ c, w.store.queue.get? r.factId = some c →
      alone (.user userId) c = false ∧ c.body = r.text ∧ SameReaders userId c.acl r.acl)

lemma SameReaders.symm {x y : RegionAcl} (h : SameReaders userId x y) : SameReaders userId y x :=
  fun reader groups hvalid hne => (h reader groups hvalid hne).symm

lemma SameReaders.trans {x y z : RegionAcl} (h : SameReaders userId x y)
    (h' : SameReaders userId y z) : SameReaders userId x z :=
  fun reader groups hvalid hne =>
    (h reader groups hvalid hne).trans (h' reader groups hvalid hne)

/-- What a claim that waits says of a fact that is gone from the index. -/
lemma spared_struck_iff {r : FactRow} {c : BufferedCapture} (hwaits : c.status = .buffered) :
    Spared userId r (none, struck userId (some c)) ↔
      alone (.user userId) c = false ∧ c.body = r.text ∧ SameReaders userId c.acl r.acl := by
  have hdropped : dropped (.user userId) c = alone (.user userId) c := by
    simp [dropped, parked, hwaits]
  obtain ⟨hstatus, hbody⟩ := @kept_keeps userId c
  cases halone : alone (.user userId) c with
  | true =>
    have hnone : struck userId (some c) = none := if_pos (hdropped.trans halone)
    rw [hnone]
    refine iff_of_false ?_ (by simp)
    rintro (⟨_, hsome, -⟩ | ⟨-, _, hsome, -⟩)
    · cases hsome
    · cases hsome
  | false =>
    have hkept : struck userId (some c) = some (kept userId c) :=
      if_neg (by rw [hdropped, halone]; exact Bool.false_ne_true)
    have hreaders := sameReaders_kept halone
    rw [hkept]
    constructor
    · rintro (⟨_, hsome, -⟩ | ⟨-, x, hx, -, htext, hsame⟩)
      · cases hsome
      · obtain rfl := Option.some.inj hx
        exact ⟨rfl, hbody.symm.trans htext, hreaders.symm.trans hsame⟩
    · rintro ⟨-, htext, hsame⟩
      exact Or.inr ⟨rfl, _, rfl, hstatus.trans hwaits, hbody.trans htext, hreaders.trans hsame⟩

/-- What is left under the id of a fact of somebody else. -/
theorem spared_passed_iff (hremoved : removedSender ≠ .user userId) {r : FactRow}
    (hr : r ∈ w.store.facts) (hsubject : r.subjectId ≠ .user userId)
    (hsender : r.senderId ≠ some (.user userId)) :
    Spared userId r (passed a now w userId (some r, w.store.queue.get? r.factId)) ↔
      SparedWhen a w userId r := by
  have hfate : fateOf r (.user userId) = .untouched := by simp [fateOf, hsubject, hsender]
  have hfate' : fateOf r (.user userId) ≠ .destroy := by simp [hfate]
  have hreaddressed : readdressed userId now r = cleansed (.user userId) now r := by
    simp [readdressed, hfate]
  by_cases hactive : r.isActive = true
  · by_cases hlost : Lost a w userId r
    · -- what is swept is not active any more
      obtain ⟨x, hx, htomb, -⟩ := settled_of_lost now hr hactive hfate' hlost
      have hretired : x.isActive = false := by
        rw [Bool.eq_false_iff]
        exact fun hlives => htomb (isActive_iff.mp hlives).2
      have hunburied : buried (hers w userId) now x = x := if_neg fun h => htomb h.2
      rw [passed_of_retired _ hx hretired, cleansed_of_deleted htomb, hunburied]
      refine iff_of_false ?_ fun h => (h hactive).1 hlost
      rintro (⟨r', hr', hlives, -⟩ | ⟨hnone, -⟩)
      · obtain rfl := Option.some.inj hr'
        rw [hlives hactive] at hretired
        cases hretired
      · cases hnone
    · by_cases hback : GoesBack a w userId r
      · have hwhen : SparedWhen a w userId r ↔ ∀ c, w.store.queue.get? r.factId = some c →
            alone (.user userId) c = false ∧ c.body = r.text ∧ SameReaders userId c.acl r.acl := by
          simp [SparedWhen, hactive, hlost, hback]
        rw [passed_of_goesBack hremoved _ hr hback, hwhen]
        cases hqueue : w.store.queue.get? r.factId with
        | none =>
          obtain ⟨-, -, -, habout, hne, -⟩ := readdressed_spec now hremoved hactive hfate'
          have halone : alone (.user userId) ((readdressed userId now r).rebuffered now) = false := by
            simp [alone, FactRow.rebuffered, habout, hne]
          have htext : (readdressed userId now r).text = r.text := by
            rw [hreaddressed]
            exact (cleansed_spec (.user userId) now r).2.2.1
          have hsame : SameReaders userId (readdressed userId now r).acl r.acl := by
            rw [hreaddressed]
            exact sameReaders_cleansed
          have hwaits : ((readdressed userId now r).rebuffered now).status = .buffered := rfl
          refine iff_of_true ?_ (by simp)
          exact (spared_struck_iff hwaits).mpr ⟨halone, htext, hsame⟩
        | some c =>
          have hwaits : c.requeued.status = .buffered := rfl
          rw [Option.elim_some, spared_struck_iff hwaits]
          simp only [Option.some.injEq, forall_eq']
          rfl
      · obtain ⟨x, hx, hlives, htext, hacl⟩ := passed_of_stays now hremoved
          (w.store.queue.get? r.factId) hr hactive hfate' hlost hback
        refine iff_of_true (Or.inl ⟨x, by rw [hx], fun _ => hlives, ?_, ?_⟩) ?_
        · rw [htext, hreaddressed]
          exact (cleansed_spec (.user userId) now r).2.2.1
        · rw [hacl, hreaddressed]
          exact sameReaders_cleansed
        · exact fun _ => ⟨hlost, fun hgoes => absurd hgoes hback⟩
  · have hretired : r.isActive = false := Bool.eq_false_iff.mpr hactive
    rw [passed_of_retired _ (settled_of_retired hretired) hretired]
    refine iff_of_true (Or.inl ⟨_, rfl, fun h => absurd h hactive, ?_, ?_⟩) fun h => absurd h hactive
    · rw [(buried_spec (hers w userId) _).1]
      exact (cleansed_spec (.user userId) now r).2.2.1
    · rw [(buried_spec (hers w userId) _).2]
      exact sameReaders_cleansed

/-! ## The directories -/

/-- The root wiki is the person's own. -/
lemma rootWiki_spec {root : WikiNode} (h : rootWiki w userId = some root) :
    root ∈ w.wikis ∧ root.wikiId = userId := by
  obtain ⟨id, hid, hlocate⟩ := Option.bind_eq_some_iff.mp h
  have hval : id.val = userId := by
    cases hparse : WikiId.parse userId with
    | error e =>
      rw [hparse] at hid
      cases hid
    | ok parsed =>
      rw [hparse] at hid
      obtain rfl : parsed = id := Option.some.inj hid
      exact WikiId.val_of_parse hparse
  exact ⟨List.mem_of_find?_eq_some hlocate, by simpa [hval] using List.find?_some hlocate⟩

/-- The directories that are left. -/
lemma directories_forgetUser {w' : Deployment} (h : forgetUser a now w userId = some w') :
    w'.wikis = w.wikis.filter (fun d =>
        !(rootWiki w userId).any fun root => root.relDir.isPrefixOf d.relDir) ∧
      w'.trash = w.trash.filter fun dir => !theirs userId dir := by
  obtain ⟨user, -, hpass⟩ := Option.bind_eq_some_iff.mp h
  dsimp only at hpass
  split_ifs at hpass
  obtain rfl := Option.some.inj hpass
  exact ⟨rfl, rfl⟩

/-- An erasure spares others exactly when no sweep takes a fact of theirs, each that goes back to
the queue agrees with its old row, and no name in the trash is read as the person's that is not. -/
theorem forgetUser_spares_iff (a : Answers) (now userId : Str) (w w' : Deployment)
    (h : forgetUser a now w userId = some w') :
    SparesOthers userId w w' ↔
      (∀ r ∈ w.store.facts, r.subjectId ≠ .user userId → r.senderId ≠ some (.user userId) →
          SparedWhen a w userId r) ∧
        ∀ dir ∈ w.trash, theirs userId dir = true → dir.root = userId := by
  obtain ⟨hwikis, htrash⟩ := directories_forgetUser h
  have hfact : ∀ r ∈ w.store.facts, r.subjectId ≠ .user userId →
      r.senderId ≠ some (.user userId) →
        (Spared userId r (heldAt w'.store r.factId) ↔ SparedWhen a w userId r) := by
    intro r hr hsubject hsender
    have hbefore : heldAt w.store r.factId = (some r, w.store.queue.get? r.factId) :=
      Prod.ext (Table.get?_eq_some_iff.mpr ⟨hr, rfl⟩) rfl
    rw [heldAt_forgetUser h, hbefore]
    exact spared_passed_iff (removedSender_ne h) hr hsubject hsender
  constructor
  · intro hspares
    refine ⟨fun r hr hsubject hsender =>
      (hfact r hr hsubject hsender).mp (hspares.facts r hr hsubject hsender), ?_⟩
    intro dir hdir htheirs
    by_contra hroot
    have hleft := hspares.trash dir hdir hroot
    rw [htrash, List.mem_filter, htheirs] at hleft
    exact absurd hleft.2 (by simp)
  · rintro ⟨hfacts, hnames⟩
    refine ⟨fun r hr hsubject hsender =>
      (hfact r hr hsubject hsender).mpr (hfacts r hr hsubject hsender), ?_, ?_⟩
    · intro d hd hother
      rw [hwikis, List.mem_filter]
      refine ⟨hd, ?_⟩
      cases hroot : rootWiki w userId with
      | none => rfl
      | some root =>
        obtain ⟨hmem, hid⟩ := rootWiki_spec hroot
        simpa [Bool.eq_false_iff] using hother root hmem hid
    · intro dir hdir hroot
      rw [htrash, List.mem_filter]
      refine ⟨hdir, ?_⟩
      cases htheirs : theirs userId dir with
      | false => rfl
      | true => exact absurd (hnames dir hdir htheirs) hroot

/-- The household, with a subtree in the trash that stood under some root wiki. -/
def householdWithTrash (name root : Str) : Deployment :=
  { household ownFact with trash := [⟨name, root⟩] }

lemma household_spares_others : ∃ w', forgetUser orderly []
    (householdWithTrash "alice-garden__20260101".toList "alice".toList) "alice".toList = some w' ∧
      SparesOthers "alice".toList
        (householdWithTrash "alice-garden__20260101".toList "alice".toList) w' := by
  obtain ⟨w', hw'⟩ := Option.isSome_iff_exists.mp (by decide +kernel :
    (forgetUser orderly [] (householdWithTrash "alice-garden__20260101".toList "alice".toList)
      "alice".toList).isSome = true)
  refine ⟨w', hw', ?_⟩
  rw [forgetUser_spares_iff orderly [] "alice".toList _ w' hw']
  constructor
  · intro r hr hsubject
    obtain rfl : r = ownFact := List.mem_singleton.mp hr
    exact absurd rfl hsubject
  · intro dir hdir _
    obtain rfl := List.mem_singleton.mp hdir
    rfl

/-- What Alice Smith's wiki left in the trash goes with Alice. -/
theorem namesake_trash_erased : ∃ w', forgetUser orderly []
    (householdWithTrash "alice-smith__20260101".toList "alice-smith".toList) "alice".toList =
      some w' ∧ ¬ SparesOthers "alice".toList
        (householdWithTrash "alice-smith__20260101".toList "alice-smith".toList) w' := by
  have hempty : (forgetUser orderly []
      (householdWithTrash "alice-smith__20260101".toList "alice-smith".toList) "alice".toList).any
        (fun w' => w'.trash.isEmpty) = true := by
    decide +kernel
  obtain ⟨w', hw', hgone⟩ := (Option.any_eq_true _ _).mp hempty
  refine ⟨w', hw', fun hspares => ?_⟩
  have hleft := hspares.trash ⟨"alice-smith__20260101".toList, "alice-smith".toList⟩
    (List.mem_singleton.mpr rfl) (by decide)
  rw [List.isEmpty_iff.mp hgone] at hleft
  cases hleft

end Gdpr

end Mwe
