import MweCore.Dream.Screen

/-!
# A claim folds into a fact that holds

A claim that repeats a fact is not written.  What it says then rests on that fact, and the fact may
be over: the rows a claim is compared with are active, which rules out the superseded and the
tombstoned, and says nothing of a reason it decayed for or of an end that is past.  Only the
entries of a list are checked for the reason.

`folds_into_open_iff` says when the fact is one that holds.  Each of the ways to fold takes the row
whose words are nearest among the rows it compares, the first of them when several are; the fact
holds exactly when the row that is taken does.
-/

namespace Mwe

open Str

section Open

variable {T : Type*} [LinearOrder T] (chrono : Chrono T)

/-- Whether a window has closed. -/
def windowClosedAt (validTo : Option Str) (now : T) : Bool :=
  (validTo.bind chrono.parseFromRfc3339).any fun vt => decide (vt ≤ now)

/-- Whether a fact holds: it stands, nothing closed it, and its end is not past. -/
def FactRow.isOpen (now : T) (r : FactRow) : Bool :=
  r.isActive && r.decayReason.isNone && !windowClosedAt chrono r.validTo now

lemma FactRow.isOpen_restricted (excluded readers : List Principal) (at' : Str) (now : T)
    (r : FactRow) : (r.restricted excluded readers at').isOpen chrono now = r.isOpen chrono now :=
  rfl

/-- The fact with an id holds. -/
def HoldsIn (facts : FactTable) (now : T) (id : FactId) : Prop :=
  ∃ r, facts.get? id = some r ∧ r.isOpen chrono now = true

end Open

namespace Capture

/-! ## The rows that are taken -/

section Taken

variable {S : Type*} [LinearOrder S] (score : Str → Str → S)

/-- Whether a row is on the channel page a claim is headed for, or on none when the claim is for
none. -/
def onChannel (channel : Option ChannelScope) (row : FactRow) : Bool :=
  match channel with
  | none => !isChannelPage row.sourcePath
  | some scope => scope.holds row

/-- The row whose words are nearest, the first of them. -/
def Nearest (rows : List FactRow) (channel : Option ChannelScope) (body : Str) (row : FactRow) :
    Prop :=
  row ∈ List.argmax (fun r => score body r.text) (rows.filter (onChannel channel))

/-- A claim that keeps a fact from somebody more: the nearest of the rows it restricts and whose
readers are its own, near enough. -/
def Narrows (roster : Roster) (rows : List FactRow) (audience : Audience)
    (channel : Option ChannelScope) (body : Str) (threshold : S) (row : FactRow) : Prop :=
  audience.excluded ≠ [] ∧ (∃ id, audience.sender.getD audience.subject = .user id) ∧
    Nearest score (rows.filter fun r => audience.restricts r &&
      (theSameReadersOnceFrozen roster r audience).isSome) channel body row ∧
    threshold ≤ score body row.text

/-- A claim that is the same: the nearest of the rows of its audience, near enough and with its
embeds. -/
def Repeats (rows : List FactRow) (audience : Audience) (channel : Option ChannelScope) (body : Str)
    (exclude : Option FactId) (threshold : S) (row : FactRow) : Prop :=
  Nearest score (rows.filter fun r => exclude != some r.factId && audience.sameAsRow r) channel
      body row ∧
    threshold ≤ score body row.text ∧ collectEmbeds row.text = collectEmbeds body

/-- A claim that says who reads a fact: the nearest of its author's rows, near enough, when that
settles something. -/
def Widens (roster : Roster) (rows : List FactRow) (audience : Audience)
    (channel : Option ChannelScope) (body : Str) (threshold : S) (row : FactRow) : Prop :=
  (∃ id, audience.sender.getD audience.subject = .user id) ∧
    Nearest score (rows.filter fun r => decide (r.subjectId = audience.subject) &&
      decide (r.senderId = audience.sender)) channel body row ∧
    threshold ≤ score body row.text ∧ (theAudienceOnceSettled roster row audience).isSome

end Taken

/-- What the first holds of, or the second when it holds of nothing. -/
def InTurn {α : Type*} (p q : α → Prop) (x : α) : Prop := p x ∨ (∀ y, ¬ p y) ∧ q x

/-- When the first holds of one thing, that is it. -/
lemma inTurn_of_first {α : Type*} {p q : α → Prop} {x : α} (h : ∀ y, x = y ↔ p y) (y : α) :
    x = y ↔ InTurn p q y := by
  constructor
  · intro hxy
    exact .inl ((h y).mp hxy)
  · rintro (hy | ⟨hno, -⟩)
    · exact (h y).mpr hy
    · exact absurd ((h x).mp rfl) (hno x)

/-- When the first holds of nothing, it is the turn of the second. -/
lemma inTurn_of_second {α : Type*} {p q : α → Prop} (hp : ∀ y, ¬ p y) (y : α) :
    InTurn p q y ↔ q y := by
  constructor
  · rintro (hy | ⟨-, hy⟩)
    · exact absurd hy (hp y)
    · exact hy
  · intro hy
    exact .inr ⟨hp, hy⟩

/-! ## What the folds take -/

section Folds

variable {S : Type*} [LinearOrder S] {score : Str → Str → S} {roster : Roster} {facts : FactTable}
  {rows : List FactRow} {audience : Audience} {channel : Option ChannelScope} {body now : Str}
  {threshold : S}

/-- The nearest row, with its score. -/
lemma closestByWords_eq_some_iff {row : FactRow} {s : S} :
    closestByWords score rows channel body = some (row, s) ↔
      Nearest score rows channel body row ∧ s = score body row.text := by
  have hargmax : closestByWords score rows channel body =
      (List.argmax (fun r => score body r.text) (rows.filter (onChannel channel))).map
        fun r => (r, score body r.text) := by
    induction rows using List.reverseRecOn with
    | nil => rfl
    | append_singleton rows last ih =>
      unfold closestByWords at ih ⊢
      rw [List.foldl_append, List.foldl_cons, List.foldl_nil, ih, List.filter_append]
      change (if (!onChannel channel last) = true then _ else _) = _
      cases hlast : onChannel channel last with
      | false => simp [hlast]
      | true =>
        rw [List.filter_singleton, hlast, cond_true, List.argmax_concat]
        cases hbest : List.argmax (fun r => score body r.text) (rows.filter (onChannel channel)) with
        | none => simp
        | some r =>
          simp only [Option.map_some, Bool.not_true, Bool.false_eq_true, if_false]
          split_ifs <;> rfl
  rw [hargmax, Nearest, Option.map_eq_some_iff]
  constructor
  · rintro ⟨r, hr, heq⟩
    obtain ⟨rfl, rfl⟩ := Prod.mk.inj heq
    exact ⟨hr, rfl⟩
  · rintro ⟨hr, rfl⟩
    exact ⟨row, hr, rfl⟩

lemma Nearest.unique {row row' : FactRow} (h : Nearest score rows channel body row)
    (h' : Nearest score rows channel body row') : row = row' :=
  Option.some.inj ((Option.mem_def.mp h).symm.trans (Option.mem_def.mp h'))

lemma Nearest.mem {row : FactRow} (h : Nearest score rows channel body row) : row ∈ rows :=
  (List.mem_filter.mp (List.argmax_mem h)).1

/-- Whoever speaks a claim may rewrite a fact with its subject and its author. -/
lemma senderMayRewrite_of_speaker {id : Str}
    (h : audience.sender.getD audience.subject = .user id) :
    senderMayRewrite audience.subject audience.sender id [] = true := by
  unfold senderMayRewrite
  cases hsender : audience.sender with
  | none =>
    rw [hsender, Option.getD_none] at h
    simp [h, senderIsSubject]
  | some sender =>
    rw [hsender, Option.getD_some] at h
    simp [h, senderIsSubject]

/-- The rows whose readers are the claim's, without the readers. -/
lemma map_fst_eligible :
    ((rows.filter audience.restricts).filterMap fun row =>
        (theSameReadersOnceFrozen roster row audience).map fun readers => (row, readers)).map
      Prod.fst =
      rows.filter fun r => audience.restricts r &&
        (theSameReadersOnceFrozen roster r audience).isSome := by
  induction rows with
  | nil => rfl
  | cons row rows ih =>
    cases hrestricts : audience.restricts row with
    | false => simpa [hrestricts] using ih
    | true =>
      cases hreaders : theSameReadersOnceFrozen roster row audience with
      | none => simpa [hrestricts, hreaders] using ih
      | some readers => simpa [hrestricts, hreaders] using ih

/-- An exclusion is put on the fact that the claim narrows, and on no other. -/
lemma applyExclusion_iff
    (hstored : ∀ r ∈ rows, FactIndex.activeRow facts r.factId = some r) {row : FactRow} :
    (∃ s, (applyExclusionToTheFactAlreadyThere score roster facts rows audience channel body
        (audience.sender.getD audience.subject) threshold now).1 = some (row, s)) ↔
      Narrows score roster rows audience channel body threshold row := by
  unfold applyExclusionToTheFactAlreadyThere Narrows
  by_cases hexcluded : audience.excluded = []
  · simp [hexcluded]
  rw [if_neg (by simpa using hexcluded)]
  cases hspeaker : audience.sender.getD audience.subject with
  | group id => simp
  | user speakerId =>
    dsimp only
    rw [map_fst_eligible]
    set eligible := rows.filter fun r => audience.restricts r &&
      (theSameReadersOnceFrozen roster r audience).isSome with heligible
    cases hclosest : closestByWords score eligible channel body with
    | none =>
      have hno : ¬ Nearest score eligible channel body row := by
        intro hnearest
        have hsome := closestByWords_eq_some_iff.mpr ⟨hnearest, rfl⟩
        cases hclosest.symm.trans hsome
      simp [hno]
    | some hit =>
      obtain ⟨near, s⟩ := hit
      obtain ⟨hnearest, rfl⟩ := closestByWords_eq_some_iff.mp hclosest
      by_cases hfar : score body near.text < threshold
      · simp only [if_pos hfar]
        constructor
        · rintro ⟨s, hs⟩
          cases hs
        · rintro ⟨-, -, hrow, hreaches⟩
          rw [hrow.unique hnearest] at hreaches
          exact absurd hfar (not_lt.mpr hreaches)
      · obtain ⟨hnearRows, hkept⟩ := List.mem_filter.mp hnearest.mem
        obtain ⟨hrestricts, hreaders⟩ := Bool.and_eq_true_iff.mp hkept
        obtain ⟨readers, hreaders⟩ := Option.isSome_iff_exists.mp hreaders
        have hsame := hrestricts
        simp only [Audience.restricts, Bool.and_eq_true, decide_eq_true_eq] at hsame
        have hmay : senderMayRewrite near.subjectId near.senderId speakerId [] = true := by
          rw [hsame.1.1.1, hsame.1.1.2]
          exact senderMayRewrite_of_speaker hspeaker
        -- the lookup by id finds the row that was nearest
        have hin : (near, readers) ∈ (rows.filter audience.restricts).filterMap fun row =>
            (theSameReadersOnceFrozen roster row audience).map fun readers => (row, readers) :=
          List.mem_filterMap.mpr
            ⟨near, List.mem_filter.mpr ⟨hnearRows, hrestricts⟩, by rw [hreaders]; rfl⟩
        have hfinds : (((rows.filter audience.restricts).filterMap fun row =>
            (theSameReadersOnceFrozen roster row audience).map fun readers => (row, readers)).find?
              fun e => e.1.factId == near.factId).isSome :=
          List.find?_isSome.mpr ⟨_, hin, by simp⟩
        obtain ⟨found, hfound⟩ := Option.isSome_iff_exists.mp hfinds
        obtain ⟨x, hx, hpair⟩ := List.mem_filterMap.mp (List.mem_of_find?_eq_some hfound)
        obtain ⟨readers', -, rfl⟩ := Option.map_eq_some_iff.mp hpair
        have hid : x.factId = near.factId := by simpa using List.find?_some hfound
        have hxnear : x = near := by
          have hxactive := hstored x (List.mem_filter.mp hx).1
          rw [hid, hstored near hnearRows] at hxactive
          exact (Option.some.inj hxactive).symm
        obtain rfl := hxnear
        simp only [if_neg hfar, hmay, Bool.not_true, Bool.false_eq_true, if_false, hfound,
          FactIndex.restrictTo, hstored x hnearRows]
        constructor
        · rintro ⟨s, hs⟩
          obtain ⟨rfl, -⟩ := Prod.mk.inj (Option.some.inj hs)
          exact ⟨hexcluded, ⟨speakerId, rfl⟩, hnearest, not_lt.mp hfar⟩
        · rintro ⟨-, -, hrow, -⟩
          exact ⟨score body x.text, by rw [hrow.unique hnearest]⟩

/-- The audience is settled on the fact that the claim widens, and on no other. -/
lemma carryTheNewAudience_iff
    (hstored : ∀ r ∈ rows, FactIndex.activeRow facts r.factId = some r) {row : FactRow} :
    (∃ s, (carryTheNewAudienceOntoTheFactItFoldsInto score roster facts rows audience channel body
        (audience.sender.getD audience.subject) threshold now).1 = some (row, s)) ↔
      Widens score roster rows audience channel body threshold row := by
  unfold carryTheNewAudienceOntoTheFactItFoldsInto Widens
  cases hspeaker : audience.sender.getD audience.subject with
  | group id => simp
  | user speakerId =>
    dsimp only
    set sameClaim := rows.filter fun r => decide (r.subjectId = audience.subject) &&
      decide (r.senderId = audience.sender) with hsameClaim
    cases hclosest : closestByWords score sameClaim channel body with
    | none =>
      have hno : ¬ Nearest score sameClaim channel body row := by
        intro hnearest
        have hsome := closestByWords_eq_some_iff.mpr ⟨hnearest, rfl⟩
        cases hclosest.symm.trans hsome
      simp [hno]
    | some hit =>
      obtain ⟨near, s⟩ := hit
      obtain ⟨hnearest, rfl⟩ := closestByWords_eq_some_iff.mp hclosest
      by_cases hfar : score body near.text < threshold
      · simp only [if_pos hfar]
        constructor
        · rintro ⟨s, hs⟩
          cases hs
        · rintro ⟨-, hrow, hreaches, -⟩
          rw [hrow.unique hnearest] at hreaches
          exact absurd hfar (not_lt.mpr hreaches)
      · obtain ⟨hnearRows, hsame⟩ := List.mem_filter.mp hnearest.mem
        simp only [Bool.and_eq_true, decide_eq_true_eq] at hsame
        have hmay : senderMayRewrite near.subjectId near.senderId speakerId [] = true := by
          rw [hsame.1, hsame.2]
          exact senderMayRewrite_of_speaker hspeaker
        cases hsettled : theAudienceOnceSettled roster near audience with
        | none =>
          simp only [if_neg hfar, hsettled]
          constructor
          · rintro ⟨s, hs⟩
            cases hs
          · rintro ⟨-, hrow, -, hmoves⟩
            rw [hrow.unique hnearest, hsettled] at hmoves
            cases hmoves
        | some settled =>
          simp only [if_neg hfar, hsettled, hmay, Bool.not_true, Bool.false_eq_true, if_false,
            FactIndex.restrictTo, hstored near hnearRows]
          constructor
          · rintro ⟨s, hs⟩
            obtain ⟨rfl, -⟩ := Prod.mk.inj (Option.some.inj hs)
            exact ⟨⟨speakerId, rfl⟩, hnearest, not_lt.mp hfar, by rw [hsettled]; rfl⟩
          · rintro ⟨-, hrow, -⟩
            exact ⟨score body near.text, by rw [hrow.unique hnearest]⟩

/-- An exclusion that is put on no fact changes nothing. -/
lemma applyExclusion_none {speaker : Principal}
    (h : (applyExclusionToTheFactAlreadyThere score roster facts rows audience channel body speaker
      threshold now).1 = none) :
    (applyExclusionToTheFactAlreadyThere score roster facts rows audience channel body speaker
      threshold now).2 = facts := by
  revert h
  unfold applyExclusionToTheFactAlreadyThere
  split_ifs with hexcluded
  · exact fun _ => rfl
  cases speaker with
  | group id => exact fun _ => rfl
  | user speakerId =>
    dsimp only
    split
    · exact fun _ => rfl
    split_ifs
    · exact fun _ => rfl
    · exact fun _ => rfl
    split
    · exact fun _ => rfl
    split
    · next hrestrict =>
      intro _
      unfold FactIndex.restrictTo at hrestrict
      split at hrestrict
      · exact (Prod.mk.inj hrestrict).2.symm
      · cases hrestrict
    · intro h
      cases h

/-- What a fold writes does not open or close the fact. -/
lemma holdsIn_of_restrictTo {T : Type*} [LinearOrder T] {chrono : Chrono T} {t : T}
    {facts' : FactTable} {row : FactRow} {excluded readers : List Principal}
    {prev : FactIndex.PrevAcl}
    (h : FactIndex.restrictTo facts row.factId excluded readers now = (some prev, facts'))
    (hrow : facts.get? row.factId = some row) :
    HoldsIn chrono facts' t row.factId ↔ row.isOpen chrono t = true := by
  unfold HoldsIn
  rw [FactIndex.get?_of_restrictTo h hrow]
  simp [FactRow.isOpen_restricted]

/-- A fact that is looked up where it stands holds when its row does. -/
lemma holdsIn_iff {T : Type*} [LinearOrder T] {chrono : Chrono T} {t : T} {row : FactRow}
    (hrow : facts.get? row.factId = some row) :
    HoldsIn chrono facts t row.factId ↔ row.isOpen chrono t = true := by
  unfold HoldsIn
  rw [hrow]
  simp

end Folds

section Takes

variable {S T : Type*} [LinearOrder S] [LinearOrder T] {floats : Floats S} {casing : Casing}
  {chrono : Chrono T} {facts : FactTable} {roster : Roster} {rows : List FactRow}
  {audience : Audience} {channel : Option ChannelScope} {body now : Str} {exclude : Option FactId}
  {threshold : S} {row : FactRow}

/-- What a search for the fact a claim repeats finds, `Taken` being the row it takes: that row, if
there is one, and the fact holds after the search exactly when the row did before. -/
def Finds (chrono : Chrono T) (t : T) (found : Option (FactRow × S) × FactTable)
    (Taken : FactRow → Prop) : Prop :=
  match found.1 with
  | none => ∀ r, ¬ Taken r
  | some hit => (∀ r, hit.1 = r ↔ Taken r) ∧
    (HoldsIn chrono found.2 t hit.1.factId ↔ hit.1.isOpen chrono t = true)

/-- The rows that are read are as they stand in the table. -/
def AsStored (facts : FactTable) (rows : List FactRow) : Prop :=
  ∀ r ∈ rows, FactIndex.activeRow facts r.factId = some r

lemma asStored_findActiveBySubject (facts : FactTable) (subject : Principal) :
    AsStored facts (FactIndex.findActiveBySubject facts subject) := by
  intro r hr
  obtain ⟨hmem, -, hactive⟩ := FactIndex.mem_findActiveBySubject.mp hr
  refine FactIndex.activeRow_eq_some_iff.mpr ⟨hmem, rfl, ?_⟩
  simp only [FactRow.isActive, Bool.and_eq_true, Option.isNone_iff_eq_none] at hactive
  exact hactive.2

lemma AsStored.get? (h : AsStored facts rows) (hr : row ∈ rows) :
    facts.get? row.factId = some row :=
  (Option.filter_eq_some_iff.mp (h row hr)).1

omit [LinearOrder S] in
/-- A hit is of its row and no other. -/
lemma hit_iff {hit : FactRow × S} {p : FactRow → Prop}
    (h : ∀ r, (∃ s, some hit = some (r, s)) ↔ p r) (r : FactRow) : hit.1 = r ↔ p r := by
  rw [← h r]
  constructor
  · rintro rfl
    exact ⟨hit.2, rfl⟩
  · rintro ⟨s, hs⟩
    rw [Option.some.inj hs]

omit [LinearOrder S] in
/-- Nothing is hit. -/
lemma no_hit {p : FactRow → Prop}
    (h : ∀ r, (∃ s, (none : Option (FactRow × S)) = some (r, s)) ↔ p r) (r : FactRow) : ¬ p r := by
  rw [← h r]
  simp

/-- The row that passes the scan is the one the claim repeats. -/
lemma filter_best_iff :
    (∃ s, (bestDedupCandidate floats casing rows audience channel body exclude).filter (fun e =>
        decide (threshold ≤ e.2) && decide (collectEmbeds e.1.text = collectEmbeds body)) =
          some (row, s)) ↔
      Repeats (Recall.score floats casing) rows audience channel body exclude threshold row := by
  unfold Repeats bestDedupCandidate
  simp only [Option.filter_eq_some_iff, closestByWords_eq_some_iff, Bool.and_eq_true,
    decide_eq_true_eq]
  constructor
  · rintro ⟨s, ⟨hnearest, rfl⟩, hreaches, hembeds⟩
    exact ⟨hnearest, hreaches, hembeds⟩
  · rintro ⟨hnearest, hreaches, hembeds⟩
    exact ⟨_, ⟨hnearest, rfl⟩, hreaches, hembeds⟩

/-- The row a claim says again. -/
def SaidAgain (floats : Floats S) (casing : Casing) (roster : Roster) (rows : List FactRow)
    (audience : Audience) (channel : Option ChannelScope) (body : Str) (exclude : Option FactId)
    (threshold : S) : FactRow → Prop :=
  InTurn (Narrows (Recall.score floats casing) roster rows audience channel body threshold)
    (Repeats (Recall.score floats casing) rows audience channel body exclude threshold)

/-- A claim that says no row again changes nothing; else the row is found. -/
lemma saidAgain_finds (t : T) (hstored : AsStored facts rows) :
    Finds chrono t
        (saidAgain floats casing roster facts rows audience channel body exclude threshold now)
        (SaidAgain floats casing roster rows audience channel body exclude threshold) ∧
      ((saidAgain floats casing roster facts rows audience channel body exclude threshold now).1 =
          none →
        (saidAgain floats casing roster facts rows audience channel body exclude threshold now).2 =
          facts) := by
  have hnarrows := fun r : FactRow => @applyExclusion_iff S _ (Recall.score floats casing)
    roster facts rows audience channel body now threshold hstored r
  have hrepeats := fun r : FactRow => @filter_best_iff S _ floats casing rows audience channel body
    exclude threshold r
  unfold saidAgain SaidAgain Finds
  cases hfold : applyExclusionToTheFactAlreadyThere (Recall.score floats casing) roster facts rows
      audience channel body (audience.sender.getD audience.subject) threshold now with
  | mk found facts₁ =>
    rw [hfold] at hnarrows
    cases found with
    | some hit =>
      obtain ⟨near, s⟩ := hit
      obtain ⟨hmem, -, -, readers, prev, -, hwrite⟩ := applyExclusion_cases hfold
      exact ⟨⟨inTurn_of_first (hit_iff hnarrows),
        holdsIn_of_restrictTo hwrite (hstored.get? hmem)⟩, fun h => by cases h⟩
    | none =>
      have hsame : facts₁ = facts := by
        have hnone := applyExclusion_none (by rw [hfold])
        rwa [hfold] at hnone
      obtain rfl := hsame
      dsimp only
      refine ⟨?_, fun _ => rfl⟩
      cases hbest : (bestDedupCandidate floats casing rows audience channel body exclude).filter
          fun e => decide (threshold ≤ e.2) &&
            decide (collectEmbeds e.1.text = collectEmbeds body) with
      | some hit =>
        rw [hbest] at hrepeats
        have hmem := ((hit_iff hrepeats hit.1).mp rfl).1.mem
        refine ⟨fun r => ?_, holdsIn_iff (hstored.get? (List.mem_filter.mp hmem).1)⟩
        rw [inTurn_of_second (no_hit hnarrows), hit_iff hrepeats]
      | none =>
        rw [hbest] at hrepeats
        intro r
        rw [inTurn_of_second (no_hit hnarrows)]
        exact no_hit hrepeats r

end Takes

/-! ## What a capture takes -/

section Captures

variable {S T : Type*} [LinearOrder S] [LinearOrder T] (floats : Floats S) (casing : Casing)
  (chrono : Chrono T)

/-- The row a capture takes a claim to repeat. -/
def Taken (around : Around) (facts : FactTable) (req : CaptureRequest S) (page : Str) :
    FactRow → Prop :=
  let rows := FactIndex.findActiveBySubject facts req.subject
  InTurn
    (SaidAgain floats casing around.roster rows req.audience (ChannelScope.of req.wikiId.val page)
      req.body none (thresholdOf floats req))
    fun row => thresholdOf floats req ≤ floats.one ∧
      listEntryVerdict casing rows req = .restates row

variable {floats casing chrono} {facts : FactTable} {req : CaptureRequest S} {page : Str}
  {around : Around} {row : FactRow}

omit [LinearOrder S] in
/-- An entry is restated by a row of its list. -/
lemma mem_of_restates {rows : List FactRow} (h : listEntryVerdict casing rows req = .restates row) :
    row ∈ rows := by
  unfold listEntryVerdict at h
  split at h
  · cases h
  · next found hfound =>
    split_ifs at h
    obtain rfl := ListEntryVerdict.restates.inj h
    unfold listEntryOfTheSameName at hfound
    split at hfound
    · cases hfound
    split at hfound
    · cases hfound
    split at hfound
    · cases hfound
    exact List.mem_reverse.mp (List.mem_of_find?_eq_some hfound)

/-- A capture finds the row it takes. -/
lemma repeatedFact_finds (t : T) :
    Finds chrono t (repeatedFact floats casing around facts req page)
      (Taken floats casing around facts req page) := by
  have hstored := asStored_findActiveBySubject facts req.subject
  have hsaid := @saidAgain_finds S T _ _ floats casing chrono facts around.roster _ req.audience
    (ChannelScope.of req.wikiId.val page) req.body around.now none (thresholdOf floats req) t hstored
  unfold repeatedFact Taken Finds at *
  dsimp only at hsaid ⊢
  cases hagain : saidAgain floats casing around.roster facts
      (FactIndex.findActiveBySubject facts req.subject) req.audience
      (ChannelScope.of req.wikiId.val page) req.body none (thresholdOf floats req) around.now with
  | mk found facts₁ =>
    rw [hagain] at hsaid
    cases found with
    | some hit => exact ⟨inTurn_of_first hsaid.1.1, hsaid.1.2⟩
    | none =>
      obtain ⟨hno, hsame⟩ := hsaid
      obtain rfl : facts₁ = facts := hsame rfl
      dsimp only
      by_cases hon : thresholdOf floats req ≤ floats.one
      · rw [if_pos hon]
        cases hverdict : listEntryVerdict casing
            (FactIndex.findActiveBySubject facts₁ req.subject) req with
        | restates row =>
          refine ⟨fun r => ?_, holdsIn_iff (hstored.get? (mem_of_restates hverdict))⟩
          rw [inTurn_of_second hno]
          simp [hon]
        | new =>
          intro r
          rw [inTurn_of_second hno]
          simp
        | replaces row =>
          intro r
          rw [inTurn_of_second hno]
          simp
      · rw [if_neg hon]
        intro r
        rw [inTurn_of_second hno]
        exact fun h => hon h.1

end Captures

end Capture

/-! ## What the screening takes -/

section Screening

open Capture Dream

variable {S T : Type*} [LinearOrder S] [LinearOrder T] (floats : Floats S) (casing : Casing)
  (chrono : Chrono T)

/-- The row the screening takes a waiting claim to repeat. -/
def Dream.Taken (roster : Roster) (facts : FactTable) (cap : BufferedCapture) (threshold : S) :
    FactRow → Prop :=
  let rows := FactIndex.findActiveBySubject facts cap.subject
  InTurn
    (SaidAgain floats casing roster rows (audienceOf cap) none cap.body (some cap.captureId)
      threshold)
    (Widens (Recall.score floats casing) roster rows (audienceOf cap) none cap.body threshold)

variable {floats casing chrono}

/-- The screening finds the row it takes. -/
lemma Dream.foldedInto_finds {roster : Roster} {facts : FactTable} {cap : BufferedCapture}
    {threshold : S} {now : Str} (t : T) :
    Finds chrono t (foldedInto floats casing roster facts cap threshold now)
      (Dream.Taken floats casing roster facts cap threshold) := by
  have hstored := asStored_findActiveBySubject facts cap.subject
  have hsaid := @saidAgain_finds S T _ _ floats casing chrono facts roster _ (audienceOf cap) none
    cap.body now (some cap.captureId) threshold t hstored
  have hwidens := fun r : FactRow => @carryTheNewAudience_iff S _ (Recall.score floats casing)
    roster facts _ (audienceOf cap) none cap.body now threshold hstored r
  unfold foldedInto Dream.Taken Finds at *
  dsimp only at hsaid ⊢
  cases hagain : saidAgain floats casing roster facts
      (FactIndex.findActiveBySubject facts cap.subject) (audienceOf cap) none cap.body
      (some cap.captureId) threshold now with
  | mk found facts₁ =>
    rw [hagain] at hsaid
    cases found with
    | some hit => exact ⟨inTurn_of_first hsaid.1.1, hsaid.1.2⟩
    | none =>
      obtain ⟨hno, hsame⟩ := hsaid
      obtain rfl : facts₁ = facts := hsame rfl
      dsimp only
      change ∀ r, (∃ s, (carryTheNewAudienceOntoTheFactItFoldsInto _ _ _ _ _ _ _
        (cap.sender.getD cap.subject) _ _).1 = some (r, s)) ↔ _ at hwidens
      cases hcarried : carryTheNewAudienceOntoTheFactItFoldsInto (Recall.score floats casing)
          roster facts₁ (FactIndex.findActiveBySubject facts₁ cap.subject) (audienceOf cap) none
          cap.body (cap.sender.getD cap.subject) threshold now with
      | mk found facts₂ =>
        rw [hcarried] at hwidens
        cases found with
        | some hit =>
          obtain ⟨near, s⟩ := hit
          obtain ⟨hmem, -, -, settled, prev, -, hwrite⟩ := carryTheNewAudience_cases hcarried
          refine ⟨fun r => ?_, holdsIn_of_restrictTo hwrite (hstored.get? hmem)⟩
          rw [inTurn_of_second hno, hit_iff hwidens]
        | none =>
          intro r
          rw [inTurn_of_second hno]
          exact no_hit hwidens r

/-! ## The fact a claim folds into -/

omit [LinearOrder S] in
/-- What is found holds exactly when every row that is taken does. -/
lemma Capture.Finds.holds_iff {t : T} {found : Option (FactRow × S) × FactTable}
    {Taken : FactRow → Prop} (h : Finds chrono t found Taken) :
    (∀ hit, found.1 = some hit → HoldsIn chrono found.2 t hit.1.factId) ↔
      ∀ row, Taken row → row.isOpen chrono t = true := by
  unfold Finds at h
  cases hfound : found.1 with
  | none =>
    rw [hfound] at h
    exact iff_of_true (fun hit hhit => by cases hhit) fun row hrow => absurd hrow (h row)
  | some hit =>
    rw [hfound] at h
    obtain ⟨htaken, hholds⟩ := h
    constructor
    · intro hall row hrow
      rw [← (htaken row).mpr hrow]
      exact hholds.mp (hall hit rfl)
    · intro hall hit' hhit'
      obtain rfl := Option.some.inj hhit'
      exact hholds.mpr (hall _ ((htaken _).mp rfl))

/-- The fact a capture reports a claim to repeat holds exactly when the row it takes does, and so
does the fact a waiting claim is folded into. -/
theorem folds_into_open_iff (floats : Floats S) (casing : Casing) (chrono : Chrono T) (t : T) :
    (∀ (around : Around) (facts : FactTable) (req : CaptureRequest S),
      (∀ id dup s, (wikiCapture floats casing around facts req).1 = .ok ⟨id, .skipped dup s⟩ →
        HoldsIn chrono (wikiCapture floats casing around facts req).2 t dup) ↔
      ∀ page req', accept around req = .ok (page, req') → around.reads = true →
        ∀ row, Capture.Taken floats casing around facts req' page row →
          row.isOpen chrono t = true) ∧
    ∀ (roster : Roster) (onDisk : List (Str × Bool)) (s : Store) (cap : BufferedCapture)
        (threshold : S) (now : Str),
      (∀ dup, (screenOne floats casing roster onDisk s cap threshold now).1 = .folded dup →
        HoldsIn chrono (screenOne floats casing roster onDisk s cap threshold now).2.facts t dup) ↔
      ∀ row, Dream.Taken floats casing roster s.facts cap threshold row →
        row.isOpen chrono t = true := by
  constructor
  · intro around facts req
    unfold wikiCapture wikiCaptureWithSource
    cases haccept : accept around req with
    | error e => simp
    | ok accepted =>
      obtain ⟨page, req'⟩ := accepted
      cases hreads : around.reads with
      | false => simp
      | true =>
        have hfinds := (@repeatedFact_finds S T _ _ floats casing chrono facts req' page around
          t).holds_iff
        have hone : (∀ page' req'', (.ok (page, req') : Except CaptureFailure _) = .ok (page', req'') →
            true = true → ∀ row, Capture.Taken floats casing around facts req'' page' row →
              row.isOpen chrono t = true) ↔
            ∀ row, Capture.Taken floats casing around facts req' page row →
              row.isOpen chrono t = true := by
          constructor
          · intro h
            exact h page req' rfl rfl
          · rintro h page' req'' heq -
            obtain ⟨rfl, rfl⟩ := Prod.mk.inj (Except.ok.inj heq)
            exact h
        rw [hone, ← hfinds]
        simp only [Bool.not_true, Bool.false_eq_true, if_false]
        cases hfound : repeatedFact floats casing around facts req' page with
        | mk found facts₁ =>
          cases found with
          | none =>
            refine iff_of_true ?_ fun hit hhit => by cases hhit
            intro id dup s hskipped
            exact absurd hskipped writeFact_ne_skipped
          | some hit =>
            obtain ⟨row, s⟩ := hit
            simp
  · intro roster onDisk s cap threshold now
    rw [← (@Dream.foldedInto_finds S T _ _ floats casing chrono roster s.facts cap threshold now
      t).holds_iff]
    unfold screenOne
    cases hfound : foldedInto floats casing roster s.facts cap threshold now with
    | mk found facts₁ =>
      cases found with
      | none =>
        refine iff_of_true ?_ fun hit hhit => by cases hhit
        intro dup hfolded
        dsimp only at hfolded
        split at hfolded <;> cases hfolded
      | some hit =>
        obtain ⟨row, s⟩ := hit
        simp

end Screening

/-! ## Milk, once more -/

section Milk

open Capture
open FactIndex (sampleChrono)

/-- Milk was on the list, and was bought. -/
def milkBought : FactRow where
  factId := ⟨"018f1234-5678-7abc-9def-0123456789ab".toList, isFactId_ab⟩
  wikiId := "alice".toList
  sourcePath := "wikis/alice/shopping.md".toList
  text := "milk".toList
  subjectId := .user "alice".toList
  senderId := some (.user "alice".toList)
  factType := none
  validFrom := none
  validTo := some "2026-06-01T00:00:00Z".toList
  decayReason := some "completed".toList
  style := some .lista
  updatedAt := []

/-- Milk goes on the list again. -/
def milkAgain : CaptureRequest ℚ where
  wikiId := ⟨"alice".toList, checkSlug_alice⟩
  page := some "shopping.md".toList
  body := "milk".toList
  subject := .user "alice".toList
  style := some .lista

/-- The call around it. -/
def atTheShop : Around where
  freshId := ⟨"018f1234-5678-7abc-9def-0123456789ac".toList, isFactId_ac⟩
  roster := household
  sourcePath := "wikis/alice/shopping.md".toList
  now := []

/-- What is left of the list. -/
def listAfterMilk : Except CaptureFailure (CaptureOutcome ℚ) × FactTable :=
  wikiCapture exactFloats asciiCasing atTheShop
    (Sql.Table.insertIfAbsent (Sql.Table.empty _) milkBought) milkAgain

theorem bought_milk_stands_for_milk :
    milkAgain.validTo = none ∧
      listAfterMilk.1 = .ok ⟨atTheShop.freshId, .skipped milkBought.factId 1⟩ ∧
      ¬ HoldsIn sampleChrono listAfterMilk.2 1781085600000 milkBought.factId := by
  have hskipped : listAfterMilk.1 = .ok ⟨atTheShop.freshId, .skipped milkBought.factId 1⟩ := by
    decide +kernel
  have hclosed : (listAfterMilk.2.get? milkBought.factId).all (fun r => !r.isOpen sampleChrono
      1781085600000) = true := by
    decide +kernel
  refine ⟨rfl, hskipped, ?_⟩
  rintro ⟨r, hr, hopen⟩
  rw [hr] at hclosed
  simp [hopen] at hclosed

end Milk

end Mwe
