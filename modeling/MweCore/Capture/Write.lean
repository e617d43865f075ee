import MweCore.Capture.Body
import MweCore.Capture.Words
import MweCore.FactIndex.Active
import MweCore.Wiki.Tree

/-!
# Capturing a fact

`wikiCapture` writes a claim as a new fact unless it repeats a stored one.  It looks for the fact
it repeats among the rows about its subject that are active, that is neither superseded nor
tombstoned, in three ways: a fact the claim keeps from one person more, a fact of the same
audience in near the same words, and an entry of the same list that is named again with nothing
new.

What the disk, the embedder and the database answer during a call is given by `Around`.
-/

namespace Mwe

open Str

namespace Capture

/-! ## Requests -/

/-- A claim to capture. -/
structure CaptureRequest (S : Type*) where
  wikiId : WikiId
  page : Option Str
  body : Str
  subject : Principal
  subjectExternal : Option Str := none
  allow : List Principal := []
  sender : Option Principal := none
  factType : Option Str := none
  topics : List Str := []
  dedupThreshold : Option S := none
  validFrom : Option Str := none
  validTo : Option Str := none
  style : Option PageStyle := none
  pageDescription : Option Str := none
  salience : Option Str := none
  slot : Option Str := none
  slotValue : Option Str := none
  excluded : List Principal := []
  authoredRefs : List Str := []

/-- Who may read the claim. -/
def CaptureRequest.audience {S : Type*} (req : CaptureRequest S) : Audience where
  subject := req.subject
  allow := req.allow
  excluded := req.excluded
  sender := req.sender

/-- Reason a capture failed. -/
inductive CaptureFailure where
  | body (reason : CaptureError)
  | noPage
  | unsafePagePath (path : Str)
  | senderRedundantInAllow (sender : Principal)
  | wiki
  | pageCaseConflict (path reason : Str)
  | embedder
  | factIndex
  | io
  | previousFactNotFound (factId : FactId)
  deriving DecidableEq

/-- What a capture did. -/
inductive CaptureAction (S : Type*) where
  | captured (sourcePath : Str) (regionStart regionEnd : ℤ)
  | skipped (matchedFactId : FactId) (similarity : S)
  | superseded (sourcePath : Str) (regionStart regionEnd : ℤ) (previousFactId : FactId)
  deriving DecidableEq

/-- Outcome of a capture. -/
structure CaptureOutcome (S : Type*) where
  factId : FactId
  action : CaptureAction S
  deriving DecidableEq

/-- Materialize who said a claim. -/
def normalizeSenderAttribution {S : Type*} (req : CaptureRequest S) :
    Except CaptureFailure (CaptureRequest S) :=
  match req.sender with
  | none => .ok { req with sender := some req.subject }
  | some sender =>
    if sender = req.subject then .ok req
    else if sender ∈ req.allow then .error (.senderRedundantInAllow sender)
    else .ok req

/-- What the disk, the embedder and the database answer during a call. -/
structure Around where
  /-- the id `new_fact_id` makes -/
  freshId : FactId
  roster : Roster
  /-- whether the wiki is there -/
  located : Bool := true
  /-- why the page may not be created -/
  pageCreationRefusal : Option Str := none
  /-- whether the embedder answers -/
  embeds : Bool := true
  /-- the file of the page, its card seeded; `none` when it cannot be read -/
  page : Option Str := some []
  sourcePath : Str
  /-- whether the database reads, and whether it makes each of the writes -/
  reads : Bool := true
  inserts : Bool := true
  compensates : Bool := true
  stamps : Bool := true
  supersedes : Bool := true
  /-- whether the file is written -/
  writes : Bool := true
  now : Str

/-! ## The fact a claim repeats -/

section Repeats

variable {S : Type*} [LinearOrder S] (floats : Floats S) (casing : Casing)

/-- The channel page a page is. -/
def ChannelScope.of (wikiId page : Str) : Option ChannelScope :=
  match fileName page with
  | none => none
  | some name => if isChannelPage name then some { wikiId, page := name } else none

/-- Whether a row is read by the people of an audience, whoever said it. -/
def Audience.sameReadSetAs (a : Audience) (row : FactRow) : Bool :=
  decide (readerSet a.subject a.allow none a.excluded =
    readerSet row.subjectId row.allowIds none row.excludedIds)

/-- Whether a row has this audience, and the author. -/
def Audience.sameAsRow (a : Audience) (row : FactRow) : Bool :=
  a.sameReadSetAs row && decide (row.senderId = a.sender)

/-- The row of the same audience whose words are nearest. -/
def bestDedupCandidate (candidates : List FactRow) (audience : Audience)
    (channel : Option ChannelScope) (body : Str) (exclude : Option FactId) :
    Option (FactRow × S) :=
  closestByWords (Recall.score floats casing)
    (candidates.filter fun row => exclude != some row.factId && audience.sameAsRow row) channel body

/-- What an entry does to the row of its name. -/
inductive ListEntryVerdict where
  | new
  | replaces (row : FactRow)
  | restates (row : FactRow)

/-- Whether a row of the list is the entry a claim names, in other words. -/
def isEntryOf (req : CaptureRequest S) (page : Str) (row : FactRow) : Bool :=
  decide (row.wikiId = req.wikiId.val) && namesPage row.sourcePath page &&
    row.decayReason.isNone && req.audience.sameReadSetAs row &&
      decide (collectEmbeds row.text = collectEmbeds req.body) &&
        (decide (trim (stripEmbedMarkers row.text) ≠ trim (stripEmbedMarkers req.body)) &&
          decide (listEntryName casing (stripEmbedMarkers row.text) =
            listEntryName casing (stripEmbedMarkers req.body)))

/-- The row of the list that is the entry a claim names, the newest. -/
def listEntryOfTheSameName (candidates : List FactRow) (req : CaptureRequest S) :
    Option FactRow :=
  if req.style ≠ some .lista then none
  else match req.page.bind fileName with
  | none => none
  | some page =>
    if (listEntryName casing (stripEmbedMarkers req.body)).isEmpty then none
    else candidates.reverse.find? (isEntryOf casing req page)

/-- Read an entry against the list it is headed for. -/
def listEntryVerdict (candidates : List FactRow) (req : CaptureRequest S) : ListEntryVerdict :=
  match listEntryOfTheSameName casing candidates req with
  | none => .new
  | some row =>
    if listEntryCarriesValues casing (stripEmbedMarkers req.body) then .replaces row
    else .restates row

/-- The threshold a claim is compared at. -/
def thresholdOf (req : CaptureRequest S) : S :=
  max (req.dedupThreshold.getD floats.defaultDedupThreshold) floats.zero

/-- The row a claim says again, and how near it is: one that the claim keeps from somebody more, or
else one of its audience and its embeds.  An exclusion is put on the row in the table. -/
def saidAgain (roster : Roster) (facts : FactTable) (candidates : List FactRow)
    (audience : Audience) (channel : Option ChannelScope) (body : Str) (exclude : Option FactId)
    (threshold : S) (now : Str) : Option (FactRow × S) × FactTable :=
  match applyExclusionToTheFactAlreadyThere (Recall.score floats casing) roster facts candidates
      audience channel body (audience.sender.getD audience.subject) threshold now with
  | (some hit, facts) => (some hit, facts)
  | (none, facts) =>
    ((bestDedupCandidate floats casing candidates audience channel body exclude).filter fun e =>
      decide (threshold ≤ e.2) && decide (collectEmbeds e.1.text = collectEmbeds body), facts)

/-- The fact a claim repeats and how near it is, and the table with the claim's exclusion on it. -/
def repeatedFact (around : Around) (facts : FactTable) (req : CaptureRequest S) (page : Str) :
    Option (FactRow × S) × FactTable :=
  let threshold := thresholdOf floats req
  let candidates := FactIndex.findActiveBySubject facts req.subject
  let channel := ChannelScope.of req.wikiId.val page
  match saidAgain floats casing around.roster facts candidates req.audience channel req.body none
      threshold around.now with
  | (some hit, facts) => (some hit, facts)
  | (none, facts) =>
    match if threshold ≤ floats.one then listEntryVerdict casing candidates req else .new with
    | .restates row =>
      let best := bestDedupCandidate floats casing candidates req.audience channel req.body none
      (some (row, ((best.filter fun e => e.1.factId == row.factId).map Prod.snd).getD floats.zero),
        facts)
    | _ => (none, facts)

end Repeats

/-! ## The new fact -/

section Write

variable {S : Type*} [LinearOrder S] (floats : Floats S) (casing : Casing)

/-- A page with a region behind what it holds, and where the region is. -/
def appendRegion (raw region : Str) : Str × ℕ × ℕ :=
  let out := if !raw.isEmpty && raw.getLast? != some '\n' then raw ++ ['\n'] else raw
  let start := len out
  let out := out ++ region
  let stop := len out
  (if out.getLast? != some '\n' then out ++ ['\n'] else out, start, stop)

/-- Reason of the tombstone of a fact whose page was not written. -/
def reasonFileWriteFailed : Str := "capture_file_write_failed".toList

/-- The fact a claim becomes. -/
def capturedFact (around : Around) (req : CaptureRequest S) (page : Str) (sourceRef : Option Str) :
    NewFact where
  factId := around.freshId
  wikiId := req.wikiId.val
  sourcePath := around.sourcePath
  text := req.body
  subjectId := req.subject
  subjectExternal := req.subjectExternal
  slot := req.slot
  slotValue := req.slotValue
  allowIds := req.allow
  excludedIds := req.excluded
  senderId := req.sender
  factType := req.factType
  topics := req.topics
  validFrom := req.validFrom
  validTo := req.validTo
  targetPage := some page
  style := req.style
  salience := req.salience
  sourceRef := sourceRef
  authoredRefs := req.authoredRefs

/-- An offset as the database has it. -/
def offset (n : ℕ) : ℤ := min n (2 ^ 63 - 1)

/-- Write a claim as a fact: the row first, then the page. -/
def writeFact (around : Around) (facts : FactTable) (req : CaptureRequest S) (page : Str)
    (sourceRef : Option Str) : Except CaptureFailure (CaptureOutcome S) × FactTable :=
  match around.page with
  | none => (.error .io, facts)
  | some raw =>
    let (_, start, stop) := appendRegion raw (renderMarker around.freshId req.body)
    match if around.inserts then
        FactIndex.insert facts (capturedFact around req page sourceRef) around.now else none with
    | none => (.error .factIndex, facts)
    | some inserted =>
      if !around.writes then
        (.error .io, if around.compensates then
          (FactIndex.markForgotten inserted around.freshId reasonFileWriteFailed around.now).2
        else inserted)
      else
        (.ok
          { factId := around.freshId
            action := .captured around.sourcePath (offset start) (offset stop) },
          if around.stamps then
            FactIndex.moveRegion inserted around.freshId around.sourcePath
              (some (offset start), some (offset stop)) around.now
          else inserted)

/-- What a capture checks before it reads the fact index: the page, and the request with its
author. -/
def accept (around : Around) (req : CaptureRequest S) :
    Except CaptureFailure (Str × CaptureRequest S) :=
  match validateBody req.body with
  | .error reason => .error (.body reason)
  | .ok () =>
    match req.page with
    | none => .error .noPage
    | some page =>
      if !isSafePagePath page then .error (.unsafePagePath page)
      else match normalizeSenderAttribution req with
      | .error e => .error e
      | .ok req =>
        if !around.located then .error .wiki
        else match around.pageCreationRefusal with
        | some reason => .error (.pageCaseConflict page reason)
        | none => if !around.embeds then .error .embedder else .ok (page, req)

/-- Capture a claim, unless it repeats a stored fact. -/
def wikiCaptureWithSource (around : Around) (facts : FactTable) (req : CaptureRequest S)
    (sourceRef : Option Str) : Except CaptureFailure (CaptureOutcome S) × FactTable :=
  match accept around req with
  | .error e => (.error e, facts)
  | .ok (page, req) =>
    if !around.reads then (.error .factIndex, facts)
    else match repeatedFact floats casing around facts req page with
    | (some (row, similarity), facts) =>
      (.ok { factId := around.freshId, action := .skipped row.factId similarity }, facts)
    | (none, facts) => writeFact around facts req page sourceRef

/-- Capture a claim that comes from no document. -/
def wikiCapture (around : Around) (facts : FactTable) (req : CaptureRequest S) :
    Except CaptureFailure (CaptureOutcome S) × FactTable :=
  wikiCaptureWithSource floats casing around facts req none

end Write

/-! ## What a capture leaves alone -/

section Laws

variable {S : Type*} {around : Around} {facts : FactTable} {req : CaptureRequest S} {page : Str}
  {sourceRef : Option Str}

/-- What a request that is accepted passed. -/
lemma accept_eq_ok_iff {req' : CaptureRequest S} :
    accept around req = .ok (page, req') ↔
      validateBody req.body = .ok () ∧ req.page = some page ∧ isSafePagePath page = true ∧
        normalizeSenderAttribution req = .ok req' ∧ around.located = true ∧
          around.pageCreationRefusal = none ∧ around.embeds = true := by
  unfold accept
  cases validateBody req.body with
  | error reason => simp
  | ok u =>
    cases req.page with
    | none => simp
    | some named =>
      by_cases hsafe : isSafePagePath named = true
      · cases normalizeSenderAttribution req with
        | error e => simp [hsafe]
        | ok normalized =>
          by_cases hlocated : around.located = true
          · cases around.pageCreationRefusal with
            | some reason => simp [hsafe, hlocated]
            | none =>
              by_cases hembeds : around.embeds = true
              · simp only [hsafe, hlocated, hembeds]
                constructor
                · intro h
                  obtain ⟨rfl, rfl⟩ := Prod.mk.inj (Except.ok.inj h)
                  simp [hsafe]
                · rintro ⟨-, hpage, -, hreq, -⟩
                  rw [Option.some.inj hpage, Except.ok.inj hreq]
                  rfl
              · simp [hsafe, hlocated, hembeds]
          · simp [hsafe, hlocated]
      · simp only [hsafe]
        constructor
        · intro h
          cases h
        · rintro ⟨-, hpage, hother, -⟩
          rw [← Option.some.inj hpage] at hother
          exact absurd hother hsafe

/-- The author of a normalized request is named, and nothing else moves. -/
lemma normalize_eq_ok {req' : CaptureRequest S} (h : normalizeSenderAttribution req = .ok req') :
    req' = { req with sender := some (req.sender.getD req.subject) } := by
  unfold normalizeSenderAttribution at h
  split at h
  · next hsender =>
    rw [← Except.ok.inj h, hsender]
    rfl
  · next sender hsender =>
    have hsame : req = { req with sender := some (req.sender.getD req.subject) } := by
      rw [hsender, Option.getD_some, ← hsender]
    split_ifs at h
    · rw [← Except.ok.inj h]
      exact hsame
    · rw [← Except.ok.inj h]
      exact hsame

/-- A fact that is written leaves every other row alone. -/
lemma get?_writeFact {id : FactId} (h : id ≠ around.freshId) :
    (writeFact around facts req page sourceRef).2.get? id = facts.get? id := by
  unfold writeFact
  split
  · rfl
  dsimp only
  split
  · rfl
  next inserted hinserted =>
  have hins : inserted.get? id = facts.get? id := by
    split_ifs at hinserted
    rw [Sql.Table.get?_insert hinserted, if_neg]
    exact fun hid => h hid.symm
  split_ifs
  · rw [FactIndex.markForgotten, FactIndex.get?_updateActive, ← hins]
    simp [h]
  · exact hins
  · rw [FactIndex.moveRegion, Sql.Table.get?_update, ← hins]
    cases hget : inserted.get? id with
    | none => rfl
    | some r =>
      obtain ⟨-, rfl⟩ := Sql.Table.get?_eq_some_iff.mp hget
      simp [h]
  · exact hins

/-- A fact is written under the fresh id, or the call fails. -/
lemma writeFact_fst (hfresh : ∀ r ∈ facts, r.factId ≠ around.freshId) :
    (around.page.isSome ∧ around.inserts ∧ around.writes ∧ ∃ start stop,
        (writeFact around facts req page sourceRef).1 =
          .ok ⟨around.freshId, .captured around.sourcePath start stop⟩) ∨
      ¬ (around.page.isSome ∧ around.inserts ∧ around.writes) ∧
        ∃ e, (writeFact around facts req page sourceRef).1 = .error e := by
  unfold writeFact
  cases hpage : around.page with
  | none => simp
  | some raw =>
    by_cases hinserts : around.inserts
    · cases hins : FactIndex.insert facts (capturedFact around req page sourceRef) around.now with
      | none => exact absurd hins (Sql.Table.insert_ne_none hfresh)
      | some inserted =>
        by_cases hwrites : around.writes
        · simp [hinserts, hwrites]
        · simp [hinserts, hwrites]
    · simp [hinserts]

/-- A write is not reported as a repetition. -/
lemma writeFact_ne_skipped {id dup : FactId} {s : S} :
    (writeFact around facts req page sourceRef).1 ≠ .ok ⟨id, .skipped dup s⟩ := by
  unfold writeFact
  split
  · simp
  dsimp only
  split
  · simp
  split_ifs <;> simp

variable [LinearOrder S] {floats : Floats S} {casing : Casing}

/-- The score that comes with the nearest row is the row's. -/
lemma score_of_closestByWords {score : Str → Str → S} {candidates : List FactRow}
    {channel : Option ChannelScope} {body : Str} {row : FactRow} {s : S}
    (h : closestByWords score candidates channel body = some (row, s)) : s = score body row.text := by
  unfold closestByWords at h
  induction candidates using List.reverseRecOn generalizing row s with
  | nil => cases h
  | append_singleton candidates last ih =>
    rw [List.foldl_append, List.foldl_cons, List.foldl_nil] at h
    dsimp only at h
    split_ifs at h with hchannel
    · exact ih h
    · split at h
      · obtain ⟨rfl, rfl⟩ := Prod.mk.inj (Option.some.inj h)
        rfl
      · next hbest =>
        split_ifs at h
        · obtain ⟨rfl, rfl⟩ := Prod.mk.inj (Option.some.inj h)
          rfl
        · exact ih h

/-- No row is as near as the threshold that turns the comparison off. -/
lemma closestByWords_lt_off {candidates : List FactRow} {channel : Option ChannelScope} {body : Str}
    {row : FactRow} {s : S}
    (h : closestByWords (Recall.score floats casing) candidates channel body = some (row, s)) :
    s < floats.off := by
  rw [score_of_closestByWords h]
  exact (Recall.score_le_one body row.text).trans_lt floats.one_lt_off

lemma applyExclusion_off {roster : Roster} {candidates : List FactRow} {audience : Audience}
    {channel : Option ChannelScope} {body now : Str} {speaker : Principal} :
    applyExclusionToTheFactAlreadyThere (Recall.score floats casing) roster facts candidates audience
      channel body speaker floats.off now = (none, facts) := by
  unfold applyExclusionToTheFactAlreadyThere
  split_ifs with hexcluded
  · rfl
  cases speaker with
  | group id => rfl
  | user speakerId =>
    dsimp only
    split
    · rfl
    · next hclosest => rw [if_pos (closestByWords_lt_off hclosest)]

/-- With the comparison off no row is said again. -/
lemma saidAgain_off {roster : Roster} {candidates : List FactRow} {audience : Audience}
    {channel : Option ChannelScope} {body now : Str} {exclude : Option FactId} :
    saidAgain floats casing roster facts candidates audience channel body exclude floats.off now =
      (none, facts) := by
  unfold saidAgain
  simp only [applyExclusion_off]
  refine Prod.ext (Option.filter_eq_none_iff.mpr ?_) rfl
  rintro ⟨row, s⟩ hbest
  simp [closestByWords_lt_off hbest]

/-- With the comparison off no claim repeats a fact. -/
lemma repeatedFact_off (h : req.dedupThreshold = some floats.off) :
    repeatedFact floats casing around facts req page = (none, facts) := by
  have hoff : thresholdOf floats req = floats.off := by
    rw [thresholdOf, h, Option.getD_some]
    exact max_eq_left (floats.zero_le_one.trans floats.one_lt_off.le)
  unfold repeatedFact
  simp only [hoff, saidAgain_off, if_neg (not_le.mpr floats.one_lt_off)]

end Laws

end Capture

end Mwe
