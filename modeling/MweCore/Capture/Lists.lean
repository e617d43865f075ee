import MweCore.Capture.Supersede
import MweCore.Dream.Holding
import MweCore.Lib.Keyed

/-!
# A list is a set of names

An entry that is said for a list either replaces the open entry of its name (`listEntryToReplace`)
or is captured, and a capture skips what repeats a stored fact.  Whether an entry has the name of
another is asked without its author, but only of entries in other words; the same words are left
to the comparison of claims, and that asks for the author.  So the same entry in the same words by
two people stands on the list twice (`list_names_latte_twice`).

`named_once_always` says when a list keeps one open entry to a name: when no claim is written beside
an open entry that was overlooked, and the audience an entry is widened to, or a wish narrows one
to, is not another entry's.
-/

namespace Mwe

namespace Capture

open Str

/-! ## The entry a claim replaces -/

/-- The row a claim replaces, and who its replacement must reach as well. -/
structure ListReplacement where
  target : FactId
  widenTo : Option Principal

section Replace

variable {S : Type*} (casing : Casing)

/-- The author of a row, when the claim as it stands would not be theirs to read. -/
def readerToCarryOver (groupsOf : Str → List Str) (row : FactRow) (req : CaptureRequest S) :
    Option Principal :=
  match row.senderId with
  | some (.user bare) =>
    if canRead { subject := some req.subject, allow := req.allow, excluded := req.excluded } bare
        (groupsOf bare) req.sender then none
    else some (.user bare)
  | _ => none

/-- The row an entry brings up to date. -/
def listEntryToReplace (groupsOf : Str → List Str) (facts : FactTable) (req : CaptureRequest S) :
    Option ListReplacement :=
  if req.style ≠ some .lista ∨ req.page = none then none
  else
    match listEntryVerdict casing (FactIndex.findActiveBySubject facts req.subject) req with
    | .replaces row => some { target := row.factId, widenTo := readerToCarryOver groupsOf row req }
    | _ => none

end Replace

/-! ## An entry that is said -/

/-- An entry that is said, and what answers while it is filed. -/
structure ListCapture (S T : Type*) where
  around : Around
  req : CaptureRequest S
  /-- whether the lookup of the entry answers, and whether that of its author's groups does -/
  finds : Bool := true
  knowsGroups : Bool := true
  whenUnstated : T
  supersededAt : Str
  /-- what the index is told when the region of the replaced entry is taken off its page -/
  strip : List RegionRepair := []

namespace ListCapture

variable {S T : Type*} (casing : Casing) (call : ListCapture S T)

/-- The entry that is replaced; a lookup that fails finds none. -/
def replacement (facts : FactTable) : Option ListReplacement :=
  if call.finds then
    listEntryToReplace casing
      (fun user => if call.knowsGroups then groupsFor call.around.roster.groups user else []) facts
      call.req
  else none

/-- The claim, written for the author of the entry it replaces as well. -/
def widened (rep : ListReplacement) : CaptureRequest S :=
  { call.req with allow := call.req.allow ++ rep.widenTo.toList }

/-- The call that replaces an entry. -/
def superseding (rep : ListReplacement) : Call S T where
  around := call.around
  previous := rep.target
  req := call.widened rep
  whenUnstated := call.whenUnstated
  supersededAt := call.supersededAt
  strip := call.strip

variable [LinearOrder S] [LinearOrder T] (floats : Floats S) (chrono : Chrono T)

/-- File an entry: it replaces the open entry of its name, or is captured. -/
def run (facts : FactTable) : Except CaptureFailure (CaptureOutcome S) × FactTable :=
  match call.replacement casing facts with
  | some rep => wikiSupersede floats casing chrono facts (call.superseding rep)
  | none => wikiCapture floats casing call.around facts call.req

end ListCapture

/-! ## The names on a list -/

/-- A list page of a wiki. -/
structure ListPage where
  wikiId : Str
  page : Str

/-- Whether a row is an open entry of a list. -/
def IsEntry (list : ListPage) (r : FactRow) : Prop :=
  r.isActive = true ∧ r.decayReason = none ∧ r.wikiId = list.wikiId ∧
    namesPage r.sourcePath list.page = true

instance (list : ListPage) (r : FactRow) : Decidable (IsEntry list r) :=
  inferInstanceAs (Decidable (_ ∧ _))

/-- What makes an entry the entry it is: its name, its subject, its readers but for the author, and
its embeds. -/
structure EntryName where
  name : Str
  subject : Principal
  readers : Finset Str
  embeds : Finset CatalogId
  deriving DecidableEq

/-- The name of a text for an audience. -/
def entryName (casing : Casing) (text : Str) (subject : Principal)
    (allow excluded : List Principal) : EntryName where
  name := listEntryName casing (stripEmbedMarkers text)
  subject := subject
  readers := readerSet subject allow none excluded
  embeds := (collectEmbeds text).toFinset

/-- The name of a row. -/
def rowName (casing : Casing) (r : FactRow) : EntryName :=
  entryName casing r.text r.subjectId r.allowIds r.excludedIds

/-- The name of a claim. -/
def CaptureRequest.entryName {S : Type*} (casing : Casing) (req : CaptureRequest S) : EntryName :=
  Capture.entryName casing req.body req.subject req.allow req.excluded

/-- A list has one open entry to a name. -/
def NamedOnce (casing : Casing) (list : ListPage) (facts : FactTable) : Prop :=
  Sql.Table.OnceBy (IsEntry list) (rowName casing) facts

/-! ## Runs -/

section Runs

variable {S T : Type*} [LinearOrder S] [LinearOrder T] (floats : Floats S) (casing : Casing)
  (chrono : Chrono T) (list : ListPage)

/-- Whether a claim is an entry for a list. -/
def ListCapture.HeadedFor (call : ListCapture S T) : Prop :=
  call.req.style = some .lista ∧ call.req.wikiId.val = list.wikiId ∧
    call.req.page.bind fileName = some list.page

/-- Whether a repair of a page tells of the rows of that page. -/
def RegionRepair.OfItsPage (around : Around) (facts : FactTable) : RegionRepair → Prop
  | .moveRegion factId sourcePath _ _ _ =>
    (∀ r ∈ facts.rows, r.factId = factId → r.sourcePath = sourcePath) ∧
      (factId = around.freshId → around.sourcePath = sourcePath)
  | _ => True

instance (call : ListCapture S T) : Decidable (call.HeadedFor list) :=
  inferInstanceAs (Decidable (_ ∧ _))

instance (around : Around) (facts : FactTable) (repair : RegionRepair) :
    Decidable (repair.OfItsPage around facts) := by
  cases repair <;> unfold RegionRepair.OfItsPage <;> infer_instance

/-- One entry is filed, under an id that is new. -/
def listStep (facts : FactTable) (call : ListCapture S T) : Option FactTable :=
  if IsFresh facts call.around.freshId ∧ call.HeadedFor list ∧
      ∀ repair ∈ call.strip, repair.OfItsPage call.around facts then
    some (call.run casing floats chrono facts).2
  else none

/-! ## When a call keeps the names -/

/-- Whether a row is left behind by a write that is begun. -/
def Around.leavesRow (around : Around) : Bool :=
  around.page.isSome && around.inserts && (around.writes || !around.compensates)

/-- Whether the replaced entry is retired once the row of the new one is there. -/
def Around.retires (around : Around) : Bool := around.writes && around.supersedes

/-- Whether a request leaves a row behind. -/
def Around.files {S : Type*} (around : Around) (req : CaptureRequest S) : Bool :=
  (accept around req).isOk && around.reads && around.leavesRow

/-- Whether a claim passes over an open entry of its name: in the same words, without a name, with
its embeds in another order, when the lookup fails, or when nothing is compared. -/
def ListCapture.Overlooks (call : ListCapture S T) (r : FactRow) : Prop :=
  trim (stripEmbedMarkers r.text) = trim (stripEmbedMarkers call.req.body) ∨
    listEntryName casing (stripEmbedMarkers call.req.body) = [] ∨
    collectEmbeds r.text ≠ collectEmbeds call.req.body ∨
    listEntryCarriesValues casing (stripEmbedMarkers call.req.body) = true ∧ call.finds = false ∨
    listEntryCarriesValues casing (stripEmbedMarkers call.req.body) = false ∧
      floats.one < thresholdOf floats call.req

/-- A call keeps one open entry to a name. -/
structure KeepsNames (facts : FactTable) (call : ListCapture S T) : Prop where
  /-- an entry that is replaced for the same readers is retired once the new row is there -/
  whole : ∀ rep, call.replacement casing facts = some rep → rep.widenTo = none →
    call.around.files (call.widened rep) = true → call.around.retires = true
  /-- no entry that stays has the readers the new one is widened to -/
  apart : ∀ rep, call.replacement casing facts = some rep → rep.widenTo.isSome = true →
    call.around.files (call.widened rep) = true →
      ∀ r ∈ facts.rows, IsEntry list r → (call.around.retires = true → r.factId ≠ rep.target) →
        rowName casing r ≠ (call.widened rep).entryName casing
  /-- a claim that is added, since it says no stored fact again, passes over no entry of its name -/
  added : call.replacement casing facts = none → ∀ page req,
    accept call.around call.req = .ok (page, req) → call.around.files call.req = true →
      (saidAgain floats casing call.around.roster facts
        (FactIndex.findActiveBySubject facts req.subject) req.audience
        (ChannelScope.of req.wikiId.val page) req.body none (thresholdOf floats req)
        call.around.now).1 = none →
      ∀ r ∈ facts.rows, IsEntry list r → rowName casing r = call.req.entryName casing →
        ¬ call.Overlooks floats casing r
  /-- a wish that narrows an entry gives it the readers of no other -/
  narrowed : call.replacement casing facts = none → ∀ page req,
    accept call.around call.req = .ok (page, req) → call.around.reads = true → ∀ row s,
      (applyExclusionToTheFactAlreadyThere (Recall.score floats casing) call.around.roster facts
        (FactIndex.findActiveBySubject facts req.subject) req.audience
        (ChannelScope.of req.wikiId.val page) req.body (req.sender.getD req.subject)
        (thresholdOf floats req) call.around.now).1 = some (row, s) → IsEntry list row →
      ∀ readers, theSameReadersOnceFrozen call.around.roster row req.audience = some readers →
        ∀ r ∈ facts.rows, IsEntry list r → r.factId ≠ row.factId →
          rowName casing r ≠ Capture.entryName casing row.text row.subjectId readers
            (row.excludedIds ++ req.excluded).eraseDups

end Runs

/-! ## What a write adds -/

section Laws

open Sql.Table

variable {S T : Type*} [LinearOrder S] [LinearOrder T] {floats : Floats S} {casing : Casing}
  {chrono : Chrono T} {list : ListPage} {facts : FactTable} {around : Around}
  {req : CaptureRequest S} {page : Str} {sourceRef : Option Str}

omit [LinearOrder S] in
/-- The row of the fresh id, after a fact is written: what was inserted, or its tombstone. -/
lemma writeFact_fresh (hfresh : ∀ r ∈ facts, r.factId ≠ around.freshId) {r' : FactRow}
    (hget : (writeFact around facts req page sourceRef).2.get? around.freshId = some r')
    (hactive : r'.isActive = true) :
    around.leavesRow = true ∧ rowName casing r' = req.entryName casing ∧
      r'.sourcePath = around.sourcePath := by
  unfold writeFact at hget
  have hnone : facts.get? around.freshId = none := get?_eq_none_iff.mpr hfresh
  cases hpage : around.page with
  | none => simp [hpage, hnone] at hget
  | some raw =>
    simp only [hpage] at hget
    split at hget
    · simp [hnone] at hget
    next inserted hinserted =>
    obtain ⟨hinserts, hinserted⟩ : around.inserts = true ∧
        facts.insert ((capturedFact around req page sourceRef).row around.now) = some inserted := by
      split_ifs at hinserted with hinserts
      exact ⟨hinserts, hinserted⟩
    have hrow : inserted.get? around.freshId =
        some ((capturedFact around req page sourceRef).row around.now) := by
      rw [get?_insert hinserted]
      exact if_pos rfl
    by_cases hwrites : around.writes = true
    · have hleaves : around.leavesRow = true := by
        simp [Around.leavesRow, hpage, hinserts, hwrites]
      refine ⟨hleaves, ?_⟩
      simp only [hwrites, Bool.not_true, Bool.false_eq_true, if_false] at hget
      split_ifs at hget
      · rw [FactIndex.moveRegion, get?_update, hrow, Option.map_some] at hget
        split_ifs at hget
        · rw [← Option.some.inj hget]
          exact ⟨rfl, rfl⟩
        · rw [← Option.some.inj hget]
          exact ⟨rfl, rfl⟩
      · rw [hrow] at hget
        rw [← Option.some.inj hget]
        exact ⟨rfl, rfl⟩
    · simp only [hwrites, Bool.not_false, if_true] at hget
      by_cases hcompensates : around.compensates = true
      · simp only [hcompensates, if_true] at hget
        rw [FactIndex.markForgotten, FactIndex.get?_updateActive, hrow, Option.map_some] at hget
        rw [← Option.some.inj hget] at hactive
        simp [FactRow.forgotten, FactRow.isActive, NewFact.row] at hactive
      · simp only [hcompensates] at hget
        rw [if_neg Bool.false_ne_true, hrow] at hget
        refine ⟨by simp [Around.leavesRow, hpage, hinserts, hcompensates], ?_⟩
        rw [← Option.some.inj hget]
        exact ⟨rfl, rfl⟩

omit [LinearOrder S] in
/-- The active rows after a fact is written: those before, and the fact if it is left there. -/
lemma active_writeFact (hfresh : ∀ r ∈ facts, r.factId ≠ around.freshId) {r' : FactRow}
    (hr' : r' ∈ (writeFact around facts req page sourceRef).2) (hactive : r'.isActive = true) :
    r' ∈ facts ∨ r'.factId = around.freshId ∧ around.leavesRow = true ∧
      rowName casing r' = req.entryName casing ∧ r'.sourcePath = around.sourcePath := by
  by_cases hid : r'.factId = around.freshId
  · exact .inr ⟨hid, writeFact_fresh hfresh (get?_eq_some_iff.mpr ⟨hr', hid⟩) hactive⟩
  · have hget := get?_eq_some_iff.mpr ⟨hr', rfl⟩
    rw [get?_writeFact hid] at hget
    exact .inl (get?_eq_some_iff.mp hget).1

/-! ## What a replacement leaves -/

/-- What of an active row makes it an entry, and its name. -/
def standing (casing : Casing) (r : FactRow) : Str × Str × Option Str × EntryName :=
  (r.sourcePath, r.wikiId, r.decayReason, rowName casing r)

/-- Every active row was one before, and stands where it stood. -/
abbrev Stands (casing : Casing) (facts facts' : FactTable) : Prop :=
  Follows (fun r : FactRow => r.isActive = true) (standing casing) facts facts'

/-- A row that stands as an entry does is one, of the same name. -/
lemma isEntry_of_standing {r r' : FactRow} (h : standing casing r' = standing casing r)
    (hactive : r.isActive = true) (hentry : IsEntry list r') :
    IsEntry list r ∧ rowName casing r' = rowName casing r := by
  obtain ⟨hpath, hwiki, hdecay, hname⟩ : r'.sourcePath = r.sourcePath ∧ r'.wikiId = r.wikiId ∧
      r'.decayReason = r.decayReason ∧ rowName casing r' = rowName casing r := by
    simpa [standing] using h
  obtain ⟨-, hopen, hhere, hpage⟩ := hentry
  exact ⟨⟨hactive, hdecay ▸ hopen, hwiki ▸ hhere, hpath ▸ hpage⟩, hname⟩

/-- The active rows are where they were before a call, or where the call writes. -/
def Homed (around : Around) (facts facts' : FactTable) : Prop :=
  ∀ r' ∈ facts', r'.isActive = true →
    (∃ r ∈ facts, r.factId = r'.factId ∧ r.sourcePath = r'.sourcePath) ∨
      r'.factId = around.freshId ∧ r'.sourcePath = around.sourcePath

lemma Homed.of_stands {facts' facts'' : FactTable} (h : Homed around facts facts')
    (hstands : Stands casing facts' facts'') : Homed around facts facts'' := by
  intro r'' hr'' hactive
  obtain ⟨r', hr', hkey, hactive', hstanding⟩ := hstands r'' hr'' hactive
  have hpath : r''.sourcePath = r'.sourcePath := (Prod.mk.inj hstanding).1
  rw [← hkey, hpath]
  exact h r' hr' hactive'

/-- A repair of a page that tells of its own rows leaves every row where it stands. -/
lemma stands_run {facts' : FactTable} {repair : RegionRepair} (h : Homed around facts facts')
    (hpage : repair.OfItsPage around facts) : Stands casing facts' (repair.run facts') := by
  cases repair with
  | moveRegion factId sourcePath regionStart regionEnd now =>
    refine follows_update (FactRow.factId_atRegion _ _ now) fun r hr hsel _ => ?_
    obtain ⟨hid, hactive⟩ : r.factId = factId ∧ r.isActive = true := by simpa using hsel
    have hpath : r.sourcePath = sourcePath := by
      rcases h r hr hactive with ⟨before, hbefore, hkey, hsame⟩ | ⟨hfresh, hsame⟩
      · rw [← hsame]
        exact hpage.1 before hbefore (hkey.trans hid)
      · rw [hsame]
        exact hpage.2 (hid.symm.trans hfresh)
    exact ⟨hactive, by simp [standing, FactRow.atRegion, rowName, hpath]⟩
  | markForgottenAt factId sourcePath now =>
    refine follows_update (FactRow.factId_forgotten _ now) fun r _ _ hactive => ?_
    simp [FactRow.forgotten, FactRow.isActive] at hactive
  | clearRegionOffsetsRetired factId now =>
    refine @follows_update _ _ _ _ _ _ _ _ (unplaced now) (fun _ => rfl) fun r _ hsel hactive => ?_
    have hretired : r.isActive = false := by simpa using (Bool.and_eq_true_iff.mp hsel).2
    have hsame : (unplaced now r).isActive = r.isActive := rfl
    rw [hsame, hretired] at hactive
    cases hactive

/-- So do all the repairs of a page. -/
lemma stands_strip {facts' : FactTable} {strip : List RegionRepair} (h : Homed around facts facts')
    (hpage : ∀ repair ∈ strip, repair.OfItsPage around facts) :
    Stands casing facts' (strip.foldl RegionRepair.run facts') := by
  induction strip generalizing facts' with
  | nil => exact Follows.refl _
  | cons repair strip ih =>
    have hfirst : Stands casing facts' (repair.run facts') :=
      stands_run h (hpage repair List.mem_cons_self)
    exact hfirst.trans (ih (h.of_stands hfirst) fun x hx => hpage x (List.mem_cons_of_mem _ hx))

/-- The active rows after one is superseded are the others. -/
lemma active_markSuperseded {staged : Option Str} {previous successor : FactId} {whenUnstated : T}
    {now : Str} {r' : FactRow}
    (hr' : r' ∈ (FactIndex.markSuperseded chrono facts staged previous successor whenUnstated
      now).2) (hactive : r'.isActive = true) : r' ∈ facts ∧ r'.factId ≠ previous := by
  unfold FactIndex.markSuperseded at hr'
  obtain ⟨r, hr, rfl⟩ :=
    (@mem_update_iff _ _ _ _ _ _ (FactRow.factId_superseded successor _ now) _).mp hr'
  split_ifs at hactive ⊢ with hsel
  · simp [FactRow.superseded, FactRow.isActive] at hactive
  · refine ⟨hr, fun hid => hsel ?_⟩
    simpa [hid, FactRow.isActive] using hactive

omit [LinearOrder S] in
/-- The author and the threshold are no part of a name. -/
lemma entryName_of_accept {req' : CaptureRequest S} {threshold : Option S}
    (h : accept around { req with dedupThreshold := threshold } = .ok (page, req')) :
    req'.entryName casing = req.entryName casing := by
  obtain ⟨-, -, -, hnormalized, -⟩ := accept_eq_ok_iff.mp h
  rw [normalize_eq_ok hnormalized]
  rfl

/-- A replacement that nobody reads the index for, that has no target or that is refused leaves
everything. -/
lemma wikiSupersede_refused {call : Call S T}
    (h : call.around.reads = false ∨ facts.get? call.previous = none ∨
      (accept call.around { call.req with dedupThreshold := some floats.off }).isOk = false) :
    (wikiSupersede floats casing chrono facts call).2 = facts := by
  unfold wikiSupersede
  cases hreads : call.around.reads with
  | false => simp
  | true =>
    simp only [Bool.not_true, Bool.false_eq_true, if_false]
    cases hget : facts.get? call.previous with
    | none => rfl
    | some row =>
      cases haccept : accept call.around { call.req with dedupThreshold := some floats.off } with
      | error e =>
        have hcapture : wikiCapture floats casing call.around facts
            { call.req with dedupThreshold := some floats.off } = (.error e, facts) := by
          rw [wikiCapture, wikiCaptureWithSource, haccept]
        simp only [hcapture]
      | ok accepted => simp [hreads, hget, haccept, Except.isOk, Except.toBool] at h

/-- What an accepted replacement leaves: the new row, and, when everything answers, the old one
retired and its region off the page. -/
lemma wikiSupersede_snd {call : Call S T} {req' : CaptureRequest S}
    (hfresh : ∀ r ∈ facts, r.factId ≠ call.around.freshId)
    (haccept : accept call.around { call.req with dedupThreshold := some floats.off } =
      .ok (page, req')) (hreads : call.around.reads = true)
    (hfound : (facts.get? call.previous).isSome = true) :
    (wikiSupersede floats casing chrono facts call).2 =
      if call.around.page.isSome && call.around.inserts && call.around.retires then
        call.strip.foldl RegionRepair.run
          (FactIndex.markSuperseded chrono (writeFact call.around facts req' page none).2 none
            call.previous call.around.freshId call.whenUnstated call.supersededAt).2
      else (writeFact call.around facts req' page none).2 := by
  obtain ⟨row, hrow⟩ := Option.isSome_iff_exists.mp hfound
  have hcapture : wikiCapture floats casing call.around facts
      { call.req with dedupThreshold := some floats.off } =
        writeFact call.around facts req' page none := by
    rcases @wikiCapture_off S T _ floats casing facts call
        { call.req with dedupThreshold := some floats.off } rfl hreads with
      ⟨e, hrefused, -⟩ | ⟨page', req'', haccept', hwrite⟩
    · exact absurd (haccept.symm.trans hrefused) (by simp)
    · obtain ⟨rfl, rfl⟩ := Prod.mk.inj (Except.ok.inj (haccept.symm.trans haccept'))
      exact hwrite
  unfold wikiSupersede Around.retires
  simp only [hreads, Bool.not_true, Bool.false_eq_true, if_false, hrow]
  rw [hcapture]
  rcases @writeFact_fst S _ _ req' page none hfresh with
    ⟨hpage, hinserts, hwrites, start, stop, hdone⟩ | ⟨hfails, e, hdone⟩
  · rw [← Prod.eta (writeFact call.around facts req' page none), hdone]
    cases hsupersedes : call.around.supersedes with
    | false => simp
    | true => simp [hpage, hinserts, hwrites]
  · rw [← Prod.eta (writeFact call.around facts req' page none), hdone]
    rw [if_neg]
    intro hall
    refine hfails ?_
    revert hall
    cases call.around.page.isSome <;> cases call.around.inserts <;>
      cases call.around.writes <;> simp

/-- The active rows after a fact replaces another: those before, less the one that is retired, and
the new one if it is left there. -/
lemma active_wikiSupersede {call : Call S T} (hfresh : IsFresh facts call.around.freshId)
    (hstrip : ∀ repair ∈ call.strip, repair.OfItsPage call.around facts) {r' : FactRow}
    (hr' : r' ∈ (wikiSupersede floats casing chrono facts call).2) (hactive : r'.isActive = true) :
    (∃ r ∈ facts, r.factId = r'.factId ∧ r.isActive = true ∧
        standing casing r' = standing casing r ∧
        (call.around.files call.req = true → call.around.retires = true →
          r.factId ≠ call.previous)) ∨
      r'.factId = call.around.freshId ∧ call.around.files call.req = true ∧
        rowName casing r' = call.req.entryName casing := by
  have hkeys : ∀ r ∈ facts, r.factId ≠ call.around.freshId := fun r hr => (hfresh r hr).1
  have hstays : r' ∈ facts →
      (call.around.files call.req = true → call.around.retires = true →
        r'.factId ≠ call.previous) →
      ∃ r ∈ facts, r.factId = r'.factId ∧ r.isActive = true ∧
        standing casing r' = standing casing r ∧
        (call.around.files call.req = true → call.around.retires = true →
          r.factId ≠ call.previous) :=
    fun hmem hother => ⟨r', hmem, rfl, hactive, rfl, hother⟩
  by_cases hrefused : call.around.reads = false ∨ facts.get? call.previous = none ∨
      (accept call.around { call.req with dedupThreshold := some floats.off }).isOk = false
  · rw [wikiSupersede_refused hrefused] at hr'
    refine .inl (hstays hr' fun hfiles _ => ?_)
    rw [isOk_accept] at hrefused
    rcases hrefused with hreads | hget | haccept
    · simp [Around.files, hreads] at hfiles
    · exact get?_eq_none_iff.mp hget r' hr'
    · simp [Around.files, haccept] at hfiles
  simp only [not_or, Bool.not_eq_false] at hrefused
  obtain ⟨hreads, hget, haccepted⟩ := hrefused
  cases haccept : accept call.around { call.req with dedupThreshold := some floats.off } with
  | error e =>
    rw [haccept] at haccepted
    cases haccepted
  | ok accepted =>
    obtain ⟨page, req'⟩ := accepted
    rw [isOk_accept] at haccepted
    -- what is there once the new fact is written
    have hwritten : ∀ r'' ∈ (writeFact call.around facts req' page none).2,
        r''.isActive = true → r'' ∈ facts ∨ r''.factId = call.around.freshId ∧
          call.around.files call.req = true ∧ rowName casing r'' = call.req.entryName casing ∧
            r''.sourcePath = call.around.sourcePath := by
      intro r'' hr'' hactive''
      have hcases := @active_writeFact S casing _ _ _ _ _ hkeys _ hr'' hactive''
      refine hcases.imp_right ?_
      rintro ⟨hid, hleaves, hrow, hpath⟩
      exact ⟨hid, by simp [Around.files, haccepted, hreads, hleaves],
        hrow.trans (entryName_of_accept haccept), hpath⟩
    rw [wikiSupersede_snd hkeys haccept hreads (Option.isSome_iff_ne_none.mpr hget)] at hr'
    split_ifs at hr' with hdone
    · have hmarked := fun r'' => @active_markSuperseded T _ chrono
        (writeFact call.around facts req' page none).2 none call.previous call.around.freshId
        call.whenUnstated call.supersededAt r''
      have hhomed : Homed call.around facts (FactIndex.markSuperseded chrono
          (writeFact call.around facts req' page none).2 none call.previous call.around.freshId
          call.whenUnstated call.supersededAt).2 := by
        intro r'' hr'' hactive''
        refine (hwritten r'' (hmarked r'' hr'' hactive'').1 hactive'').imp ?_ ?_
        · exact fun hmem => ⟨r'', hmem, rfl, rfl⟩
        · exact fun hnew => ⟨hnew.1, hnew.2.2.2⟩
      obtain ⟨r'', hr'', hkey, hactive'', hstanding⟩ :=
        (@stands_strip casing _ _ _ _ hhomed hstrip) r' hr' hactive
      obtain ⟨hmem, hother⟩ := hmarked r'' hr'' hactive''
      rcases hwritten r'' hmem hactive'' with hold | ⟨hid, hfiles, hrow, -⟩
      · exact .inl ⟨r'', hold, hkey, hactive'', hstanding, fun _ _ => hother⟩
      · have hname : rowName casing r' = rowName casing r'' :=
          congrArg (fun standing => standing.2.2.2) hstanding
        exact .inr ⟨hkey.symm.trans hid, hfiles, hname.trans hrow⟩
    · refine (hwritten r' hr' hactive).imp (fun hold => hstays hold ?_) fun hnew => ?_
      · intro hfiles hretires
        simp only [Around.files, Around.leavesRow, Bool.and_eq_true] at hfiles
        obtain ⟨-, ⟨hpage, hinserts⟩, -⟩ := hfiles
        exact absurd (by rw [hpage, hinserts, hretires]; rfl) hdone
      · exact ⟨hnew.1, hnew.2.1, hnew.2.2.1⟩

/-! ## What a call keeps -/

omit [LinearOrder S] in
/-- What an entry and a claim share when they have one name. -/
lemma shared_of_name {row : FactRow} (h : rowName casing row = req.entryName casing) :
    listEntryName casing (stripEmbedMarkers row.text) =
        listEntryName casing (stripEmbedMarkers req.body) ∧
      row.subjectId = req.subject ∧
        readerSet row.subjectId row.allowIds none row.excludedIds =
          readerSet req.subject req.allow none req.excluded := by
  unfold rowName CaptureRequest.entryName entryName at h
  injection h with hname hsubject hreaders
  exact ⟨hname, hsubject, hreaders⟩

omit [LinearOrder S] in
/-- When a row of a list is the entry a claim names. -/
lemma isEntryOf_iff {row : FactRow} : isEntryOf casing req page row = true ↔
    row.wikiId = req.wikiId.val ∧ namesPage row.sourcePath page = true ∧
      row.decayReason = none ∧ req.audience.sameReadSetAs row = true ∧
        collectEmbeds row.text = collectEmbeds req.body ∧
          trim (stripEmbedMarkers row.text) ≠ trim (stripEmbedMarkers req.body) ∧
            listEntryName casing (stripEmbedMarkers row.text) =
              listEntryName casing (stripEmbedMarkers req.body) := by
  simp only [isEntryOf, Bool.and_eq_true, decide_eq_true_eq, Option.isNone_iff_eq_none, and_assoc]

omit [LinearOrder S] [LinearOrder T] in
/-- A row that is the entry a claim names is an open entry of the list, of its name. -/
lemma isEntry_of_isEntryOf {call : ListCapture S T} (hlist : call.HeadedFor list) {row : FactRow}
    (hactive : row.isActive = true) (hsubject : row.subjectId = call.req.subject)
    (h : isEntryOf casing call.req list.page row = true) :
    IsEntry list row ∧ rowName casing row = call.req.entryName casing := by
  obtain ⟨-, hwiki, -⟩ := hlist
  obtain ⟨hhere, hpage, hopen, hreaders, hembeds, -, hname⟩ := isEntryOf_iff.mp h
  have hreaders := of_decide_eq_true hreaders
  refine ⟨⟨hactive, hopen, hhere.trans hwiki, hpage⟩, ?_⟩
  have hreaders : readerSet call.req.subject row.allowIds none row.excludedIds =
      readerSet call.req.subject call.req.allow none call.req.excluded := by
    rw [← hsubject]
    exact hreaders.symm.trans (by rw [hsubject]; rfl)
  rw [rowName, CaptureRequest.entryName, entryName, entryName, hname, hsubject, hembeds, hreaders]

omit [LinearOrder S] [LinearOrder T] in
/-- The entry of the same name, for a claim that is headed for the list. -/
lemma listEntryOfTheSameName_eq {call : ListCapture S T} (hlist : call.HeadedFor list)
    (candidates : List FactRow) :
    listEntryOfTheSameName casing candidates call.req =
      if listEntryName casing (stripEmbedMarkers call.req.body) = [] then none
      else candidates.reverse.find? (isEntryOf casing call.req list.page) := by
  obtain ⟨hstyle, -, hpage⟩ := hlist
  rw [listEntryOfTheSameName, if_neg (not_not.mpr hstyle), hpage]
  simp only [List.isEmpty_iff]

omit [LinearOrder S] [LinearOrder T] in
/-- What the claim replaces is the entry of its name, and the claim gives it values. -/
lemma replacement_eq_some {call : ListCapture S T} {rep : ListReplacement}
    (h : call.replacement casing facts = some rep) :
    ∃ row, listEntryOfTheSameName casing (FactIndex.findActiveBySubject facts call.req.subject)
      call.req = some row ∧ row.factId = rep.target := by
  unfold ListCapture.replacement listEntryToReplace at h
  split at h
  · split at h
    · cases h
    split at h
    · next row hverdict =>
      refine ⟨row, ?_, by rw [← Option.some.inj h]⟩
      unfold listEntryVerdict at hverdict
      split at hverdict
      · cases hverdict
      · next row' hrow =>
        split_ifs at hverdict
        rw [hrow, ListEntryVerdict.replaces.inj hverdict]
    · cases h
  · cases h

omit [LinearOrder S] [LinearOrder T] in
/-- The entry that is replaced is an open entry of the list, of the claim's name. -/
lemma replacement_cases {call : ListCapture S T} (hlist : call.HeadedFor list)
    {rep : ListReplacement} (h : call.replacement casing facts = some rep) :
    ∃ row ∈ facts, row.factId = rep.target ∧ IsEntry list row ∧
      rowName casing row = call.req.entryName casing := by
  obtain ⟨row, hsame, hid⟩ := replacement_eq_some h
  rw [listEntryOfTheSameName_eq hlist] at hsame
  split_ifs at hsame
  obtain ⟨hrow, hsubject, hactive⟩ := FactIndex.mem_findActiveBySubject.mp
    (List.mem_reverse.mp (List.mem_of_find?_eq_some hsame))
  exact ⟨row, hrow, hid, isEntry_of_isEntryOf hlist hactive hsubject (List.find?_some hsame)⟩

/-- A replacement keeps the names. -/
lemma namedOnce_replaced {call : ListCapture S T} (h : NamedOnce casing list facts)
    (hfresh : IsFresh facts call.around.freshId) (hlist : call.HeadedFor list)
    (hstrip : ∀ repair ∈ call.strip, repair.OfItsPage call.around facts)
    (hkeeps : KeepsNames floats casing list facts call) {rep : ListReplacement}
    (hrep : call.replacement casing facts = some rep) :
    NamedOnce casing list
      (wikiSupersede floats casing chrono facts (call.superseding rep)).2 := by
  obtain ⟨target, htarget, hid, hentry, hname⟩ := replacement_cases hlist hrep
  have hrows := fun r' => @active_wikiSupersede S T _ _ floats casing chrono facts
    (call.superseding rep) hfresh hstrip r'
  by_cases hfiles : call.around.files (call.widened rep) = true
  · refine h.of_added call.around.freshId ((call.widened rep).entryName casing)
      (fun r => call.around.retires = true → r.factId ≠ rep.target)
      (fun r' hr' hentry' => ?_) fun r hr hentry' hstays => ?_
    · rcases hrows r' hr' hentry'.1 with ⟨r, hr, hkey, hactive, hstanding, hother⟩ | ⟨hid, -, hnew⟩
      · obtain ⟨hentry, hname⟩ := isEntry_of_standing hstanding hactive hentry'
        exact .inl ⟨r, hr, hkey, hentry, hname, hother hfiles⟩
      · exact .inr ⟨hid, hnew⟩
    · cases hwiden : rep.widenTo with
      | some reader =>
        exact hkeeps.apart rep hrep (by rw [hwiden]; rfl) hfiles r hr hentry' hstays
      | none =>
        -- the name is the old entry's, and no other row has it
        intro hsame
        have hwritten : (call.widened rep).entryName casing = call.req.entryName casing := by
          simp [CaptureRequest.entryName, ListCapture.widened, hwiden]
        have hrow : r = target := h r hr target htarget hentry' hentry
          (hsame.trans (hwritten.trans hname.symm))
        exact hstays (hkeeps.whole rep hrep hwiden hfiles) (by rw [hrow, hid])
  · refine h.of_follows fun r' hr' hentry' => ?_
    rcases hrows r' hr' hentry'.1 with ⟨r, hr, hkey, hactive, hstanding, -⟩ | ⟨-, hnew, -⟩
    · obtain ⟨hentry, hname⟩ := isEntry_of_standing hstanding hactive hentry'
      exact ⟨r, hr, hkey, hentry, hname⟩
    · exact absurd hnew hfiles

/-- What a capture finds repeated: a fact a wish is put on, a fact left as it is, or none. -/
lemma repeatedFact_cases :
    (∃ row s facts', applyExclusionToTheFactAlreadyThere (Recall.score floats casing) around.roster
        facts (FactIndex.findActiveBySubject facts req.subject) req.audience
        (ChannelScope.of req.wikiId.val page) req.body (req.sender.getD req.subject)
        (thresholdOf floats req) around.now = (some (row, s), facts') ∧
        repeatedFact floats casing around facts req page = (some (row, s), facts')) ∨
      (∃ hit, repeatedFact floats casing around facts req page = (some hit, facts)) ∨
      repeatedFact floats casing around facts req page = (none, facts) ∧
        (saidAgain floats casing around.roster facts
          (FactIndex.findActiveBySubject facts req.subject) req.audience
          (ChannelScope.of req.wikiId.val page) req.body none (thresholdOf floats req)
          around.now).1 = none ∧
        (thresholdOf floats req ≤ floats.one → ∀ row, listEntryVerdict casing
          (FactIndex.findActiveBySubject facts req.subject) req ≠ .restates row) := by
  have hspeaker : req.audience.sender.getD req.audience.subject = req.sender.getD req.subject := rfl
  cases hfold : applyExclusionToTheFactAlreadyThere (Recall.score floats casing) around.roster
    facts (FactIndex.findActiveBySubject facts req.subject) req.audience
    (ChannelScope.of req.wikiId.val page) req.body (req.sender.getD req.subject)
    (thresholdOf floats req) around.now with
  | mk found facts' =>
    cases found with
    | some hit =>
      refine .inl ⟨hit.1, hit.2, facts', rfl, ?_⟩
      simp only [repeatedFact, saidAgain, hspeaker, hfold]
    | none =>
      have hsame : facts' = facts := by
        have hnone := applyExclusion_none (congrArg Prod.fst hfold)
        rwa [hfold] at hnone
      subst hsame
      right
      have hagain : saidAgain floats casing around.roster facts'
          (FactIndex.findActiveBySubject facts' req.subject) req.audience
          (ChannelScope.of req.wikiId.val page) req.body none (thresholdOf floats req)
          around.now = ((saidAgain floats casing around.roster facts'
          (FactIndex.findActiveBySubject facts' req.subject) req.audience
          (ChannelScope.of req.wikiId.val page) req.body none (thresholdOf floats req)
          around.now).1, facts') := by
        simp only [saidAgain, hspeaker, hfold]
      unfold repeatedFact
      dsimp only
      rw [hagain]
      cases hbest : (saidAgain floats casing around.roster facts'
          (FactIndex.findActiveBySubject facts' req.subject) req.audience
          (ChannelScope.of req.wikiId.val page) req.body none (thresholdOf floats req)
          around.now).1 with
      | some hit => exact .inl ⟨hit, rfl⟩
      | none =>
        dsimp only
        split
        · exact .inl ⟨_, rfl⟩
        · next hverdict =>
          refine .inr ⟨rfl, rfl, fun hthreshold row hrow => hverdict row ?_⟩
          rw [if_pos hthreshold, hrow]

omit [LinearOrder T] in
/-- A wish that narrows an entry keeps the names. -/
lemma namedOnce_narrowed {call : ListCapture S T} (h : NamedOnce casing list facts)
    (hkeeps : KeepsNames floats casing list facts call)
    (hrep : call.replacement casing facts = none) {req' : CaptureRequest S}
    (haccept : accept call.around call.req = .ok (page, req')) (hreads : call.around.reads = true)
    {row : FactRow} {s : S} {facts' : FactTable}
    (hfold : applyExclusionToTheFactAlreadyThere (Recall.score floats casing) call.around.roster
      facts (FactIndex.findActiveBySubject facts req'.subject) req'.audience
      (ChannelScope.of req'.wikiId.val page) req'.body (req'.sender.getD req'.subject)
      (thresholdOf floats req') call.around.now = (some (row, s), facts')) :
    NamedOnce casing list facts' := by
  obtain ⟨hrow, -, -, readers, prev, hreaders, hrestrict⟩ := applyExclusion_cases hfold
  obtain ⟨hmem, -, hactive⟩ := FactIndex.mem_findActiveBySubject.mp hrow
  obtain ⟨stored, hstored, rfl⟩ := FactIndex.activeRow_eq_some_of_restrictTo hrestrict
  have hget : facts.get? row.factId = some row := get?_eq_some_iff.mpr ⟨hmem, rfl⟩
  obtain rfl : row = stored := by
    rw [FactIndex.activeRow, hget] at hstored
    exact Option.some.inj (Option.filter_eq_some_iff.mp hstored).1
  by_cases hentry : IsEntry list row
  · refine h.of_added row.factId (entryName casing row.text row.subjectId readers
      (row.excludedIds ++ req'.excluded).eraseDups) (fun r => r.factId ≠ row.factId) ?_
      fun r hr hentry' hother => hkeeps.narrowed hrep page req' haccept hreads row s
        (congrArg Prod.fst hfold) hentry readers hreaders r hr hentry' hother
    intro r' hr' hentry'
    obtain ⟨r, hr, rfl⟩ := (@mem_update_iff _ _ _ _ _ _ (FactRow.factId_restricted _ _ _) _).mp hr'
    split_ifs at hentry' ⊢ with hsel
    · have hid : r.factId = row.factId := by simpa using (Bool.and_eq_true_iff.mp hsel).1
      rw [facts.eq_of_key_eq hr hmem hid]
      exact .inr ⟨rfl, rfl⟩
    · refine .inl ⟨r, hr, rfl, hentry', rfl, fun hid => hsel ?_⟩
      have hactive' := hentry'.1
      simp only [FactRow.isActive, Bool.and_eq_true] at hactive'
      simp [hid, hactive'.2]
  · refine h.of_follows (follows_update (FactRow.factId_restricted _ _ _)
      fun r hr hsel hentry' => absurd ?_ hentry)
    have hid : r.factId = row.factId := by simpa using (Bool.and_eq_true_iff.mp hsel).1
    rw [facts.eq_of_key_eq hr hmem hid] at hentry'
    exact hentry'

omit [LinearOrder T] in
/-- An open entry of the claim's name that is not overlooked is replaced or restated. -/
lemma verdict_of_not_overlooked {call : ListCapture S T} (hlist : call.HeadedFor list)
    {r : FactRow} (hr : r ∈ facts) (hentry : IsEntry list r)
    (hname : rowName casing r = call.req.entryName casing)
    (hsees : ¬ call.Overlooks floats casing r) :
    (∃ rep, call.replacement casing facts = some rep) ∨
      thresholdOf floats call.req ≤ floats.one ∧
        ∃ row, listEntryVerdict casing (FactIndex.findActiveBySubject facts call.req.subject)
          call.req = .restates row := by
  obtain ⟨hstyle, hwiki, hpage⟩ := id hlist
  obtain ⟨hactive, hopen, hhere, hnames⟩ := hentry
  simp only [ListCapture.Overlooks, not_or, not_and, not_not] at hsees
  obtain ⟨hwords, hnamed, hembeds, hfinds, hcompared⟩ := hsees
  obtain ⟨hsaid, hsubject, hreaders⟩ := shared_of_name hname
  have hread : call.req.audience.sameReadSetAs r = true := by
    unfold Audience.sameReadSetAs
    rw [decide_eq_true_iff]
    exact hreaders.symm
  have his : isEntryOf casing call.req list.page r = true :=
    isEntryOf_iff.mpr ⟨hhere.trans hwiki.symm, hnames, hopen, hread, hembeds, hwords, hsaid⟩
  have hcandidate : r ∈ (FactIndex.findActiveBySubject facts call.req.subject).reverse :=
    List.mem_reverse.mpr (FactIndex.mem_findActiveBySubject.mpr ⟨hr, hsubject, hactive⟩)
  obtain ⟨row, hrow⟩ := Option.isSome_iff_exists.mp
    (List.find?_isSome.mpr ⟨r, hcandidate, his⟩)
  have hsame : listEntryOfTheSameName casing
      (FactIndex.findActiveBySubject facts call.req.subject) call.req = some row := by
    rw [listEntryOfTheSameName_eq hlist, if_neg hnamed, hrow]
  cases hcarries : listEntryCarriesValues casing (stripEmbedMarkers call.req.body) with
  | true =>
    have hverdict : listEntryVerdict casing (FactIndex.findActiveBySubject facts call.req.subject)
        call.req = .replaces row := by
      rw [listEntryVerdict, hsame]
      exact if_pos hcarries
    have hlisted : ¬ (call.req.style ≠ some .lista ∨ call.req.page = none) := by
      rintro (hno | hno)
      · exact hno hstyle
      · simp [hno] at hpage
    left
    unfold ListCapture.replacement listEntryToReplace
    rw [if_pos (by simpa using hfinds hcarries), if_neg hlisted, hverdict]
    exact ⟨_, rfl⟩
  | false =>
    refine .inr ⟨not_lt.mp (hcompared hcarries), row, ?_⟩
    rw [listEntryVerdict, hsame]
    exact if_neg (by simp [hcarries])

omit [LinearOrder T] in
/-- A capture keeps the names. -/
lemma namedOnce_captured {call : ListCapture S T} (h : NamedOnce casing list facts)
    (hfresh : IsFresh facts call.around.freshId) (hlist : call.HeadedFor list)
    (hkeeps : KeepsNames floats casing list facts call)
    (hrep : call.replacement casing facts = none) :
    NamedOnce casing list (wikiCapture floats casing call.around facts call.req).2 := by
  unfold wikiCapture wikiCaptureWithSource
  cases haccept : accept call.around call.req with
  | error e => exact h
  | ok accepted =>
    obtain ⟨page, req'⟩ := accepted
    cases hreads : call.around.reads with
    | false => simpa using h
    | true =>
      simp only [Bool.not_true, Bool.false_eq_true, if_false]
      have hnormalized := normalize_eq_ok (accept_eq_ok_iff.mp haccept).2.2.2.1
      rcases @repeatedFact_cases S _ floats casing facts call.around req' page with
        ⟨row, s, facts', hfold, hrepeated⟩ | ⟨hit, hrepeated⟩ | ⟨hrepeated, hagain, hverdict⟩
      · rw [hrepeated]
        exact namedOnce_narrowed h hkeeps hrep haccept hreads hfold
      · rw [hrepeated]
        exact h
      · rw [hrepeated]
        have hkeys : ∀ r ∈ facts, r.factId ≠ call.around.freshId := fun r hr => (hfresh r hr).1
        have hrows := fun r' => @active_writeFact S casing facts call.around req' page none hkeys r'
        have hname : req'.entryName casing = call.req.entryName casing := by rw [hnormalized]; rfl
        by_cases hfiles : call.around.files call.req = true
        · refine h.of_added call.around.freshId (call.req.entryName casing) (fun _ => True)
            (fun r' hr' hentry => ?_) fun r hr hentry _ hsame => ?_
          · rcases hrows r' hr' hentry.1 with hold | ⟨hid, -, hrow, -⟩
            · exact .inl ⟨r', hold, rfl, hentry, rfl, trivial⟩
            · exact .inr ⟨hid, hrow.trans hname⟩
          · have hsees := hkeeps.added hrep page req' haccept hfiles hagain r hr hentry hsame
            rcases verdict_of_not_overlooked hlist hr hentry hsame hsees with
              ⟨rep, hrep'⟩ | ⟨hcompared, row, hrow⟩
            · exact absurd (hrep.symm.trans hrep') (by simp)
            · refine hverdict ?_ row ?_
              · rw [hnormalized]
                exact hcompared
              · rw [hnormalized]
                exact hrow
        · refine h.of_follows fun r' hr' hentry => ?_
          rcases hrows r' hr' hentry.1 with hold | ⟨-, hleaves, -, -⟩
          · exact ⟨r', hold, rfl, hentry, rfl⟩
          · refine absurd ?_ hfiles
            simp [Around.files, haccept, hreads, hleaves, Except.isOk, Except.toBool]

/-- A call keeps the names when it meets the condition. -/
lemma namedOnce_listStep {call : ListCapture S T} {facts' : FactTable}
    (hstep : listStep floats casing chrono list facts call = some facts')
    (h : NamedOnce casing list facts) (hkeeps : KeepsNames floats casing list facts call) :
    NamedOnce casing list facts' := by
  unfold listStep at hstep
  split_ifs at hstep with hguard
  obtain ⟨hfresh, hlist, hstrip⟩ := hguard
  obtain rfl := Option.some.inj hstep
  unfold ListCapture.run
  cases hrep : call.replacement casing facts with
  | some rep => exact namedOnce_replaced h hfresh hlist hstrip hkeeps hrep
  | none => exact namedOnce_captured h hfresh hlist hkeeps hrep

/-- Along any run of entries for a list, the list keeps one open entry to a name in every state when
every call meets the condition. -/
theorem named_once_always {facts t : FactTable} {trace : List (FactTable × ListCapture S T)}
    (hrun : Run (listStep floats casing chrono list) facts trace t)
    (hs : NamedOnce casing list facts)
    (hkeeps : ∀ p ∈ trace, KeepsNames floats casing list p.1 p.2) :
    Run.Always (NamedOnce casing list) trace t :=
  hrun.invariant hs (fun hstep h hkeeps => namedOnce_listStep hstep h hkeeps) hkeeps

end Laws

/-! ## The parents need milk -/

open FactIndex (sampleChrono)

/-- The shopping list of Alice's wiki. -/
def shopping : ListPage where
  wikiId := "alice".toList
  page := "shopping.md".toList

/-- An entry for the parents, said by one of them. -/
def saidBy (who : Str) (freshId : FactId) (body : Str) : ListCapture ℚ ℤ where
  around := {
    freshId
    roster := household
    sourcePath := "wikis/alice/shopping.md".toList
    now := [] }
  req := {
    wikiId := ⟨"alice".toList, checkSlug_alice⟩
    page := some "shopping.md".toList
    body := body
    subject := .group "parents".toList
    sender := some (.user who)
    style := some .lista }
  whenUnstated := 0
  supersededAt := []

/-- Entries for the shopping list, one after the other. -/
abbrev stepShopping : FactTable → ListCapture ℚ ℤ → Option FactTable :=
  listStep exactFloats asciiCasing sampleChrono shopping

/-- Bob says how much milk, and Alice says how much instead. -/
def latteInNumbers : List (ListCapture ℚ ℤ) :=
  [saidBy "bob".toList firstHours "latte 2".toList,
    saidBy "alice".toList laterHours "latte 3".toList]

/-- Bob asks for milk, and so does Alice. -/
def latteTwice : List (ListCapture ℚ ℤ) :=
  [saidBy "bob".toList firstHours "latte".toList,
    saidBy "alice".toList laterHours "latte".toList]

/-- Whether a call replaces the one entry there is, or is the first. -/
def checkNames (facts : FactTable) (call : ListCapture ℚ ℤ) : Bool :=
  match call.replacement asciiCasing facts with
  | none => facts.rows.isEmpty
  | some rep => call.around.retires && facts.rows.all fun r => r.factId = rep.target

lemma keepsNames_of_check {facts : FactTable} {call : ListCapture ℚ ℤ}
    (h : checkNames facts call = true) :
    KeepsNames exactFloats asciiCasing shopping facts call := by
  unfold checkNames at h
  cases hrep : call.replacement asciiCasing facts with
  | none =>
    rw [hrep] at h
    have hempty : facts.rows = [] := by simpa using h
    constructor <;> intro hcase <;> simp [hrep, hempty] at hcase ⊢
  | some rep =>
    rw [hrep] at h
    obtain ⟨hretires, hrows⟩ : call.around.retires = true ∧
        ∀ r ∈ facts.rows, r.factId = rep.target := by simpa using h
    refine ⟨fun _ _ _ _ => hretires, fun rep' hrep' _ _ r hr _ hstays => ?_,
      fun hnone => ?_, fun hnone => ?_⟩
    · obtain rfl := Option.some.inj (hrep.symm.trans hrep')
      exact absurd (hrows r hr) (hstays hretires)
    · simp [hrep] at hnone
    · simp [hrep] at hnone

lemma namedOnce_empty : NamedOnce asciiCasing shopping (Sql.Table.empty _) :=
  fun _ hr => absurd hr List.not_mem_nil

theorem named_once_always_latte :
    ∃ trace t, Run stepShopping (Sql.Table.empty _) trace t ∧ t.rows.length = 2 ∧
      Run.Always (NamedOnce asciiCasing shopping) trace t := by
  have hruns : (latteInNumbers.foldlM (fun x e => if checkNames x e then stepShopping x e else none)
      (Sql.Table.empty _)).any (fun t => t.rows.length = 2) = true := by decide +kernel
  obtain ⟨trace, t, hrun, hchecked, hlength⟩ := Run.exists_of_any_checked hruns
  exact ⟨trace, t, hrun, of_decide_eq_true hlength,
    named_once_always hrun namedOnce_empty fun p hp => keepsNames_of_check (hchecked p hp)⟩

/-- Whether two open entries of the shopping list have one name. -/
def twoNamedAlike (facts : FactTable) : Bool :=
  facts.rows.any fun r => facts.rows.any fun r' =>
    IsEntry shopping r && IsEntry shopping r' &&
      rowName asciiCasing r = rowName asciiCasing r' && decide (r.factId ≠ r'.factId)

theorem list_names_latte_twice :
    ∃ trace t, Run stepShopping (Sql.Table.empty _) trace t ∧
      NamedOnce asciiCasing shopping (Sql.Table.empty _) ∧ ¬ NamedOnce asciiCasing shopping t := by
  have hruns : (latteTwice.foldlM stepShopping (Sql.Table.empty _)).any twoNamedAlike = true := by
    decide +kernel
  obtain ⟨trace, t, hrun, htwo⟩ := Run.exists_of_any hruns
  refine ⟨trace, t, hrun, namedOnce_empty, fun honce => ?_⟩
  obtain ⟨r, hr, r', hr', hentry, hentry', hname, hother⟩ : ∃ r ∈ t.rows, ∃ r' ∈ t.rows,
      IsEntry shopping r ∧ IsEntry shopping r' ∧ rowName asciiCasing r = rowName asciiCasing r' ∧
        r.factId ≠ r'.factId := by
    simpa [twoNamedAlike, and_assoc] using htwo
  exact hother (congrArg FactRow.factId (honce r hr r' hr' hentry hentry' hname))

end Capture

end Mwe
