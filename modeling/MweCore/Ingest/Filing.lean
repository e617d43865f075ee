import MweCore.Capture.Lists
import MweCore.FactIndex.Bounds
import MweCore.Gdpr.Forget
import MweCore.Ingest.Replay
import MweCore.Recall.Block

/-!
# Filing one extraction

The classifier hands over a claim as it read it, a `CaptureUnit`, with the fact it would replace.
`validateCapturePlan` makes the capture of it and decides who the fact is about: the subject that
was written, else the one group its audience names when the fact is about a named thing, else the
sender.  `validateSupersedeTarget` lets the fact be replaced when it was recalled this turn, is no
standing rule, is about the same subject and is the sender's to rewrite; it decides the subject
again, from the written one and the sender alone.

`supersede_guard_iff` says when the two agree: always, unless the subject is missing, the audience
moves it to a group (`Moved`), and the fact to be replaced is filed under that group or under the
sender.  `replaced_across_subjects` is a turn in which a fact of the sender is replaced by one of a
group.
-/

namespace Mwe

open Str Recall

namespace Ingest

/-! ## Extractions -/

/-- What the classifier answered about one group. -/
structure LlmGroupAudience where
  group : Str
  answer : Str

/-- Whether the answer is a yes. -/
def LlmGroupAudience.saysYes (a : LlmGroupAudience) : Bool :=
  ["yes".toList, "y".toList, "true".toList].contains (toAsciiLowercase (trim a.answer))

/-- What the classifier answered about who is kept from a claim. -/
structure LlmKeptFrom where
  answer : Str := []
  people : List Str := []

/-- The people an answer keeps a claim from. -/
def LlmKeptFrom.named (k : LlmKeptFrom) : List Str :=
  if ["somebody".toList, "someone".toList, "yes".toList].contains
      (toAsciiLowercase (trim k.answer)) then k.people
  else []

/-- One claim as the classifier read it. -/
structure CaptureUnit where
  targetWikiId : Option Str := none
  targetPage : Option Str := none
  subjectId : Option Str := none
  subjectExternal : Option Str := none
  excludedIds : List Str := []
  groupAudience : List LlmGroupAudience := []
  keptFrom : LlmKeptFrom := {}
  allowIds : List Str := []
  factType : Option Str := none
  validFrom : Option Str := none
  validTo : Option Str := none
  style : Option Str := none
  pageDescription : Option Str := none
  salience : Option Str := none
  requestedContainer : Bool := false
  topics : List Str := []
  body : Option Str := none
  supersedeTarget : Option Str := none
  slot : Option Str := none
  slotValue : Option Str := none

/-- A wiki the sender may write to. -/
structure AvailableWiki where
  wikiId : Str
  isAgent : Bool := false

/-- Why an extraction is not filed. -/
inductive CapturePlanError where
  /-- `no writable wiki for this capture (subject nor sender has one)` -/
  | missingTargetWiki
  /-- `extraction has no body` -/
  | missingBody
  /-- `invalid wiki_id: {0}` -/
  | badWikiId (e : SlugParseError)
  /-- `invalid principal: {0}` -/
  | badPrincipal (e : PrincipalParseError)
  /-- ``target_wiki_id `{target}` is an agent wiki; a {subject}-owned fact cannot be filed there and
  no subject home wiki was in the window`` -/
  | targetIsAgentWiki (target subject : Str)
  /-- `invalid supersede_target fact_id: {0}` -/
  | badSupersedeFactId (e : FactIdParseError)
  /-- ``supersede_target `{id}` is not in recalled_memory ({available})`` -/
  | supersedeTargetNotInRecall (id available : Str)
  /-- ``supersede_target `{0}` is a standing directive — a rule is revised only by a rule`` -/
  | supersedeTargetIsAStandingRule (id : Str)
  /-- ``supersede_target `{id}` is owned by {target_subject}, not the new fact's subject
  {new_subject}`` -/
  | supersedeCrossSubject (id targetSubject newSubject : Str)
  /-- ``supersede_target `{id}` is about {target_subject}, which the sender {sender} is not, and was
  said by somebody else`` -/
  | supersedeNotOwned (id targetSubject sender : Str)
  deriving DecidableEq

/-- The groups of a household, with their members. -/
abbrev Groups := List (Str × List Str)

/-- A list with an element that it lacks. -/
def takeOnce (out : List Principal) (p : Principal) : List Principal :=
  if out.contains p then out else out ++ [p]

/-- What a field says, unless it is blank. -/
def namedOrAbsent (s : Option Str) : Option Str := (s.map trim).filter fun n => !n.isEmpty

/-! ## Who a claim is about -/

/-- The groups of the sender, without `global`. -/
def groupsTheQuestionCovers (senderId : Str) (groups : Groups) : List Str :=
  (groups.filter fun g => g.1 != "global".toList && g.2.contains senderId).map Prod.fst

/-- The groups that were answered yes for. -/
def groupsAnsweredYes (unit : CaptureUnit) (senderId : Str) (groups : Groups) : List Principal :=
  (((unit.groupAudience.filter LlmGroupAudience.saysYes).map fun a => trim a.group).filter
    fun id => (groupsTheQuestionCovers senderId groups).contains id).map Principal.group

/-- The groups of the written audience. -/
def groupsAllowed (unit : CaptureUnit) : List Principal :=
  unit.allowIds.filterMap fun s =>
    match Principal.fromStr s with
    | .ok (.group id) => if id = "global".toList then none else some (.group id)
    | _ => none

/-- Every group that the claim names as its audience, once each. -/
def audienceGroupsNamed (unit : CaptureUnit) (senderId : Str) (groups : Groups) :
    List Principal :=
  (groupsAllowed unit ++ groupsAnsweredYes unit senderId groups).foldl takeOnce []

/-- The one group that answers for a claim about a named thing. -/
def subjectFromTheAudience (unit : CaptureUnit) (senderId : Str) (groups : Groups) :
    Option Principal :=
  (namedOrAbsent unit.subjectExternal).bind fun _ =>
    match audienceGroupsNamed unit senderId groups with
    | [only] => some only
    | _ => none

/-- Who a claim is about. -/
def subjectOfTheClaim (unit : CaptureUnit) (request : IngestRequest) (groups : Groups) :
    Except PrincipalParseError Principal :=
  match unit.subjectId with
  | some s => Principal.fromStr s
  | none =>
    .ok ((subjectFromTheAudience unit request.senderId groups).getD (.user request.senderId))

/-! ## Where it goes -/

/-- Whether a claim is an entry of a list. -/
def isListShaped (unit : CaptureUnit) : Bool :=
  unit.style.any fun s => eqIgnoreAsciiCase (trim s) "lista".toList

/-- The page of a name the classifier wrote. -/
def normalizeCapturePage (raw : Option Str) : Option Str :=
  (raw.bind Planner.canonicalPagePath).filter isSafePagePath

/-- The name of a file without what follows its last dot. -/
def fileStem (page : Str) : Option Str :=
  (fileName page).map fun name =>
    let ext := name.rtakeWhile fun c => c ≠ '.'
    if name.length ≤ ext.length + 1 then name else name.take (name.length - ext.length - 1)

/-- Whether a page that somebody named is the engine's. -/
def namesReservedPage (page : Str) : Bool :=
  (fileStem page).any fun stem => isReservedPageStem (toAsciiLowercase stem)

/-- The id of the wiki that bears a principal's name. -/
def homeOf : Principal → Str
  | .user id | .group id => id

/-- The wiki a claim is filed in: the one it names, that of the list it adds to, its subject's, its
sender's. -/
def deriveTargetWiki (unit : CaptureUnit) (request : IngestRequest) (subject : Principal)
    (honouredPage : Option Str) (available : List AvailableWiki)
    (listPages : List Capture.ListPage) : Option Str :=
  let known := fun id => if available.any (fun w => w.wikiId == id) then some id else none
  let home := homeOf subject
  let ofList := (honouredPage.bind fileName).bind fun name =>
    ((listPages.find? fun l => l.page == name && l.wikiId == home).or
      (listPages.find? fun l => l.page == name)).bind fun hit => known hit.wikiId
  (unit.targetWikiId.bind known).or (ofList.or ((known home).or (known request.senderId)))

/-- The wiki, once a claim about somebody else is turned away from an agent's. -/
def awayFromTheAgent (subject : Principal) (target : Str) (available : List AvailableWiki) :
    Except CapturePlanError Str :=
  if (available.find? fun w => w.wikiId == target).any AvailableWiki.isAgent &&
      homeOf subject != target then
    match available.find? fun w => w.wikiId == homeOf subject with
    | some w => .ok w.wikiId
    | none => .error (.targetIsAgentWiki target subject.display)
  else .ok target

/-! ## The fields of the capture -/

/-- The people a claim is kept from, once each. -/
def keptOutOnce (ids : List Str) : List Principal :=
  (ids.filterMap fun s => (Principal.fromStr s).toOption).foldl takeOnce []

/-- Whether a principal is a person. -/
def isUser : Principal → Bool
  | .user _ => true
  | .group _ => false

/-- Who a claim must not reach; nobody keeps it from themselves. -/
def readExclusions (unit : CaptureUnit) (speaker : Principal) : List Principal :=
  ((keptOutOnce (unit.excludedIds ++ unit.keptFrom.named)).filter isUser).filter
    fun p => p ≠ speaker

/-- The prefixes the engine writes into the topics for itself. -/
def engineTopicPrefixes : List Str := ["signpost-".toList, "project-signpost".toList]

/-- The first two topics, as they are counted. -/
def normalizeFactTopics (casing : Casing) (raw : List Str) : List Str :=
  (raw.foldl (fun out word =>
    let word := casing.toLowercase (trim word)
    if word.isEmpty || engineTopicPrefixes.any (fun p => p.isPrefixOf word) || out.contains word
    then out else out ++ [word]) []).take 2

/-- The salience a claim is stored with: one that names its own subject is not card material. -/
def salienceFor (unit : CaptureUnit) : Option Str :=
  if (namedOrAbsent unit.subjectExternal).isSome &&
      FactIndex.belongsOnAnIdentityCard unit.factType unit.salience then
    some "normal".toList
  else unit.salience

/-- A proposed bound of a window; what names no date leaves it open. -/
def normalizeCaptureBound (reader : FactIndex.Reader) (raw : Option Str)
    (edge : FactIndex.DayEdge) : Option Str :=
  (namedOrAbsent raw).bind fun s => FactIndex.canonicalBound reader s edge

/-- The words of a claim; only a claim that is the whole turn may be without. -/
def bodyOf (unit : CaptureUnit) (request : IngestRequest) (allowMessageFallback : Bool) :
    Except CapturePlanError Str :=
  match namedOrAbsent unit.body with
  | some b => .ok b
  | none => if allowMessageFallback then .ok request.text else .error .missingBody

/-! ## The capture, and the fact it replaces -/

section Plan

variable {S : Type} (casing : Casing) (reader : FactIndex.Reader)

/-- The capture of an extraction. -/
def validateCapturePlan (unit : CaptureUnit) (request : IngestRequest) (authoredRefs : List Str)
    (dedupThreshold : S) (available : List AvailableWiki) (listPages : List Capture.ListPage)
    (allowMessageFallback : Bool) (groups : Groups) :
    Except CapturePlanError (Capture.CaptureRequest S) := do
  let subject ← (subjectOfTheClaim unit request groups).mapError .badPrincipal
  let namesItsPage := isListShaped unit || unit.requestedContainer
  let named := if namesItsPage then unit.targetPage else none
  let page := (normalizeCapturePage named).filter fun coined => !namesReservedPage coined
  let target ← Effect.present
    (deriveTargetWiki unit request subject named available listPages) .missingTargetWiki
  let _ ← (WikiId.parse target).mapError .badWikiId
  let home ← awayFromTheAgent subject target available
  let wikiId ← (WikiId.parse home).mapError .badWikiId
  let written ← (unit.allowIds.mapM Principal.fromStr).mapError .badPrincipal
  let sender := Principal.user request.senderId
  let allow := (groupsAnsweredYes unit request.senderId groups).foldl takeOnce
    (written.filter fun p => p ≠ sender)
  let (allow, excluded) :=
    Capture.audienceWithoutTheExcluded allow (readExclusions unit sender) groups
  let body ← bodyOf unit request allowMessageFallback
  let isBio := unit.factType == some "bio".toList
  return {
    wikiId := wikiId
    page := page
    body := body
    subject := subject
    subjectExternal := unit.subjectExternal
    allow := allow
    sender := some sender
    factType := unit.factType
    topics := normalizeFactTopics casing unit.topics
    dedupThreshold := some dedupThreshold
    validFrom := normalizeCaptureBound reader unit.validFrom .start
    validTo := normalizeCaptureBound reader unit.validTo .stop
    style := PageStyle.parseLenient unit.style
    pageDescription := if namesItsPage then unit.pageDescription else none
    salience := salienceFor unit
    slot := if isBio then namedOrAbsent unit.slot else none
    slotValue := if isBio && unit.slot.isSome then namedOrAbsent unit.slotValue else none
    excluded := excluded
    authoredRefs := authoredRefs
  }

end Plan

section Guard

variable {S : Type}

/-- The ids the turn recalled, as a refusal lists them. -/
def listed (recallHits : List (RecallHit S)) : Str :=
  let ids := List.intercalate ", ".toList (recallHits.map fun h => h.factId.val)
  if ids.isEmpty then "<none>".toList else ids

/-- The subject that is written, or the sender. -/
def newSubject (unit : CaptureUnit) (request : IngestRequest) :
    Except PrincipalParseError Principal :=
  match unit.subjectId with
  | some s => Principal.fromStr s
  | none => .ok (.user request.senderId)

/-- The fact an extraction may replace. -/
def validateSupersedeTarget (unit : CaptureUnit) (request : IngestRequest)
    (senderGroups : List Str) (recallHits : List (RecallHit S)) :
    Except CapturePlanError (Option FactId) :=
  match unit.supersedeTarget.filter fun s => !(trim s).isEmpty with
  | none => .ok none
  | some raw => do
    let factId ← (FactId.parse raw).mapError .badSupersedeFactId
    match recallHits.find? fun h => h.factId = factId with
    | none => .error (.supersedeTargetNotInRecall raw (listed recallHits))
    | some hit =>
      if Gdpr.isRulesPage hit.sourcePath then .error (.supersedeTargetIsAStandingRule raw)
      else
        let subject ← (newSubject unit request).mapError .badPrincipal
        if hit.subjectId ≠ subject then
          .error (.supersedeCrossSubject raw hit.subjectId.display subject.display)
        else if !senderMayRewrite hit.subjectId hit.senderId request.senderId senderGroups then
          .error (.supersedeNotOwned raw hit.subjectId.display request.senderId)
        else .ok (some factId)

/-! ## What is replaced, and by what -/

/-- The recalled fact that an extraction would replace. -/
def targetHit (unit : CaptureUnit) (recallHits : List (RecallHit S)) : Option (RecallHit S) :=
  (unit.supersedeTarget.filter fun s => !(trim s).isEmpty).bind fun raw =>
    (FactId.parse raw).toOption.bind fun factId => recallHits.find? fun h => h.factId = factId

/-- A replacement is guarded by the subject `subject` the capture is filed under: what is accepted
has it, and a recalled fact that has it, is no rule and is the sender's to rewrite, is accepted. -/
structure Guarded (unit : CaptureUnit) (request : IngestRequest) (senderGroups : List Str)
    (recallHits : List (RecallHit S)) (subject : Principal) : Prop where
  sound : ∀ id, validateSupersedeTarget unit request senderGroups recallHits = .ok (some id) →
    ∃ hit, targetHit unit recallHits = some hit ∧ hit.factId = id ∧ hit.subjectId = subject
  complete : ∀ hit, targetHit unit recallHits = some hit → hit.subjectId = subject →
    Gdpr.isRulesPage hit.sourcePath = false →
    senderMayRewrite hit.subjectId hit.senderId request.senderId senderGroups = true →
    validateSupersedeTarget unit request senderGroups recallHits = .ok (some hit.factId)

/-- An extraction without a subject, about a named thing, whose audience names one group; and a
fact to replace, no rule and the sender's to rewrite, of that group or of the sender. -/
def Moved (unit : CaptureUnit) (request : IngestRequest) (groups : Groups)
    (senderGroups : List Str) (recallHits : List (RecallHit S)) : Prop :=
  ∃ group hit, unit.subjectId = none ∧ (namedOrAbsent unit.subjectExternal).isSome = true ∧
    audienceGroupsNamed unit request.senderId groups = [group] ∧
    targetHit unit recallHits = some hit ∧ Gdpr.isRulesPage hit.sourcePath = false ∧
    senderMayRewrite hit.subjectId hit.senderId request.senderId senderGroups = true ∧
    (hit.subjectId = .user request.senderId ∨ hit.subjectId = group)

end Guard

/-- A list with an element it lacks holds no more than both. -/
lemma mem_of_mem_foldl_takeOnce {ps out : List Principal} {p : Principal}
    (h : p ∈ ps.foldl takeOnce out) : p ∈ out ∨ p ∈ ps := by
  induction ps generalizing out with
  | nil => exact .inl h
  | cons q ps ih =>
    rcases ih h with h | h
    · rw [takeOnce] at h
      split_ifs at h
      · exact .inl h
      · rcases List.mem_append.mp h with h | h
        · exact .inl h
        · exact .inr (by simp [List.mem_singleton.mp h])
    · exact .inr (List.mem_cons_of_mem q h)

/-- An audience names groups. -/
lemma isUser_of_mem_audienceGroupsNamed {unit : CaptureUnit} {senderId : Str} {groups : Groups}
    {p : Principal} (h : p ∈ audienceGroupsNamed unit senderId groups) : isUser p = false := by
  rcases mem_of_mem_foldl_takeOnce h with h | h
  · simp at h
  rcases List.mem_append.mp h with h | h
  · obtain ⟨s, -, hs⟩ := List.mem_filterMap.mp h
    split at hs
    · split_ifs at hs
      rw [← Option.some.inj hs]
      rfl
    · simp at hs
  · obtain ⟨id, -, rfl⟩ := List.mem_map.mp h
    rfl

section Laws

variable {S : Type} {casing : Casing} {reader : FactIndex.Reader} {unit : CaptureUnit}
  {request : IngestRequest} {authoredRefs : List Str} {dedupThreshold : S}
  {available : List AvailableWiki} {listPages : List Capture.ListPage}
  {allowMessageFallback : Bool} {groups : Groups} {req : Capture.CaptureRequest S}
  {senderGroups : List Str} {recallHits : List (RecallHit S)}

/-- A capture is filed under the subject of its claim. -/
lemma subject_of_validateCapturePlan
    (h : validateCapturePlan casing reader unit request authoredRefs dedupThreshold available
      listPages allowMessageFallback groups = .ok req) :
    subjectOfTheClaim unit request groups = .ok req.subject := by
  rw [validateCapturePlan] at h
  simp only [Effect.except_bind_ok_iff, Effect.mapError_ok_iff] at h
  obtain ⟨subject, hsubject, _, -, _, -, _, -, _, -, _, -, _, -, h⟩ := h
  rw [← Except.ok.inj h]
  exact hsubject

/-- The group that answers for a claim is the one its audience names. -/
lemma subjectFromTheAudience_eq_some_iff {senderId : Str} {group : Principal} :
    subjectFromTheAudience unit senderId groups = some group ↔
      (namedOrAbsent unit.subjectExternal).isSome = true ∧
        audienceGroupsNamed unit senderId groups = [group] := by
  rw [subjectFromTheAudience, Option.bind_eq_some_iff, Option.isSome_iff_exists]
  constructor
  · rintro ⟨name, hname, hgroup⟩
    refine ⟨⟨name, hname⟩, ?_⟩
    split at hgroup
    · next only honly => rw [honly, Option.some.inj hgroup]
    · simp at hgroup
  · rintro ⟨⟨name, hname⟩, hgroup⟩
    exact ⟨name, hname, by rw [hgroup]⟩

/-- What is accepted: the recalled fact, no rule, of the written subject or of the sender, and the
sender's to rewrite. -/
lemma validateSupersedeTarget_eq_some_iff {id : FactId} :
    validateSupersedeTarget unit request senderGroups recallHits = .ok (some id) ↔
      ∃ hit, targetHit unit recallHits = some hit ∧ hit.factId = id ∧
        Gdpr.isRulesPage hit.sourcePath = false ∧ newSubject unit request = .ok hit.subjectId ∧
        senderMayRewrite hit.subjectId hit.senderId request.senderId senderGroups = true := by
  rw [validateSupersedeTarget, targetHit]
  rcases unit.supersedeTarget.filter fun s => !(trim s).isEmpty with _ | raw
  · simp
  rw [Option.bind_some, Effect.except_bind_ok_iff]
  rcases hparse : FactId.parse raw with e | factId
  · simp [Except.mapError, Except.toOption]
  rw [show (Except.ok factId : Except FactIdParseError FactId).toOption = some factId from rfl,
    Option.bind_some]
  rcases hfind : recallHits.find? fun h => h.factId = factId with _ | hit
  · simp [Except.mapError, hfind]
  have hid : hit.factId = factId := by simpa using List.find?_some hfind
  simp only [Effect.mapError_ok_iff, Except.ok.injEq, exists_eq_left', hfind, Option.some.injEq]
  rcases hrule : Gdpr.isRulesPage hit.sourcePath with _ | _
  · rw [if_neg (by simp), Effect.except_bind_ok_iff]
    constructor
    · rintro ⟨subject, hsubject, h⟩
      split_ifs at h with hcross howned
      rw [Effect.mapError_ok_iff] at hsubject
      push Not at hcross
      exact ⟨hid.trans (Option.some.inj (Except.ok.inj h)), rfl, by rw [hcross, hsubject],
        by simpa using howned⟩
    · rintro ⟨rfl, -, hsubject, hmay⟩
      refine ⟨hit.subjectId, by rw [hsubject]; rfl, ?_⟩
      rw [if_neg (by simp), hmay, ← hid]
      rfl
  · simp

/-- Where no group answers for a claim, the guard reads its subject as the filing does. -/
lemma newSubject_of_subjectOfTheClaim {subject : Principal}
    (h : subjectOfTheClaim unit request groups = .ok subject)
    (hmoved : unit.subjectId = none → subjectFromTheAudience unit request.senderId groups = none) :
    newSubject unit request = .ok subject := by
  rw [subjectOfTheClaim] at h
  rw [newSubject]
  rcases hid : unit.subjectId with _ | s
  · rw [hid, hmoved hid] at h
    exact h
  · rw [hid] at h
    exact h

/-- **The guard and the filing agree on the subject exactly when the audience does not move it.**
For the capture made of an extraction, a fact that is accepted for replacement is about its subject,
and one that is about its subject is accepted, exactly unless the subject is missing, the claim is
about a named thing, its audience names one group, and the fact to be replaced is of that group or
of the sender. -/
theorem supersede_guard_iff
    (h : validateCapturePlan casing reader unit request authoredRefs dedupThreshold available
      listPages allowMessageFallback groups = .ok req) :
    Guarded unit request senderGroups recallHits req.subject ↔
      ¬ Moved unit request groups senderGroups recallHits := by
  have hfiled := subject_of_validateCapturePlan h
  constructor
  · rintro ⟨sound, complete⟩ ⟨group, hit, hnone, hext, hgroup, hhit, hrule, hmay, hsubject⟩
    have hclaim : req.subject = group := by
      rw [subjectOfTheClaim, hnone] at hfiled
      dsimp only at hfiled
      rw [subjectFromTheAudience_eq_some_iff.mpr ⟨hext, hgroup⟩] at hfiled
      exact (Except.ok.inj hfiled).symm
    have hnew : newSubject unit request = .ok (.user request.senderId) := by
      rw [newSubject, hnone]
    have hne : group ≠ .user request.senderId := by
      intro heq
      have := isUser_of_mem_audienceGroupsNamed (p := group) (by rw [hgroup]; simp)
      rw [heq] at this
      simp [isUser] at this
    rcases hsubject with hsubject | hsubject
    · -- a fact of the sender is accepted, and the capture is the group's
      obtain ⟨hit', hhit', -, hsame⟩ := sound hit.factId
        (validateSupersedeTarget_eq_some_iff.mpr
          ⟨hit, hhit, rfl, hrule, by rw [hnew, hsubject], hmay⟩)
      rw [hhit] at hhit'
      obtain rfl := Option.some.inj hhit'
      exact hne (hclaim.symm.trans (hsame.symm.trans hsubject))
    · -- a fact of the group is refused
      obtain ⟨hit', hhit', -, -, hnew', -⟩ := validateSupersedeTarget_eq_some_iff.mp
        (complete hit hhit (hsubject.trans hclaim.symm) hrule hmay)
      rw [hhit] at hhit'
      obtain rfl := Option.some.inj hhit'
      rw [hnew] at hnew'
      exact hne (hsubject.symm.trans (Except.ok.inj hnew').symm)
  · intro hmoved
    -- where the audience moves the subject, the fact is neither the sender's nor the group's
    have hagree : ∀ hit, targetHit unit recallHits = some hit →
        Gdpr.isRulesPage hit.sourcePath = false →
        senderMayRewrite hit.subjectId hit.senderId request.senderId senderGroups = true →
        (newSubject unit request = .ok hit.subjectId ↔ hit.subjectId = req.subject) := by
      intro hit hhit hrule hmay
      by_cases hplain : unit.subjectId = none →
          subjectFromTheAudience unit request.senderId groups = none
      · rw [newSubject_of_subjectOfTheClaim hfiled hplain, Except.ok.injEq, eq_comm]
      · push Not at hplain
        obtain ⟨hnone, hsome⟩ := hplain
        obtain ⟨group, hgroup⟩ := Option.ne_none_iff_exists'.mp hsome
        obtain ⟨hext, hnamed⟩ := subjectFromTheAudience_eq_some_iff.mp hgroup
        have hclaim : req.subject = group := by
          rw [subjectOfTheClaim, hnone] at hfiled
          dsimp only at hfiled
          rw [hgroup] at hfiled
          exact (Except.ok.inj hfiled).symm
        constructor
        · intro hnew
          rw [newSubject, hnone] at hnew
          exact absurd ⟨group, hit, hnone, hext, hnamed, hhit, hrule, hmay,
            .inl (Except.ok.inj hnew).symm⟩ hmoved
        · intro hsubject
          exact absurd ⟨group, hit, hnone, hext, hnamed, hhit, hrule, hmay,
            .inr (hsubject.trans hclaim)⟩ hmoved
    constructor
    · intro id haccepted
      obtain ⟨hit, hhit, hid, hrule, hnew, hmay⟩ :=
        validateSupersedeTarget_eq_some_iff.mp haccepted
      exact ⟨hit, hhit, hid, (hagree hit hhit hrule hmay).mp hnew⟩
    · intro hit hhit hsubject hrule hmay
      exact validateSupersedeTarget_eq_some_iff.mpr
        ⟨hit, hhit, rfl, hrule, (hagree hit hhit hrule hmay).mpr hsubject, hmay⟩

end Laws

/-! ## A fact that is replaced by one of a group -/

/-- A case mapping that leaves every letter as it is. -/
def plainCasing : Casing where
  toUppercase c := [c]
  toLowercase s := s

/-- A date library that reads nothing. -/
def noDates : FactIndex.Reader where
  parseFromRfc3339 _ := none
  parseFromStr _ := none

/-- The turn of alice about her cat. -/
def pepperTurn : IngestRequest where
  text := "Pepper now eats twice a day".toList
  senderId := "alice".toList

/-- What was stored of the cat: a fact of alice. -/
def pepperFact : FactId :=
  ⟨"019abcde-0000-7000-8000-000000000001".toList, by decide +kernel⟩

/-- The claim, which names the cat and the family, and no subject. -/
def pepperUnit : CaptureUnit where
  subjectExternal := some "Pepper".toList
  allowIds := ["group:family".toList]
  body := some "Pepper eats twice a day.".toList
  supersedeTarget := some pepperFact.val

/-- What the turn recalled. -/
def pepperHit : RecallHit ℚ where
  factId := pepperFact
  wikiId := "alice".toList
  sourcePath := "alice/pepper.md".toList
  text := "Pepper eats once a day.".toList
  subjectId := .user "alice".toList
  score := 9 / 10

/-- The capture of the claim. -/
def pepperCapture (unit : CaptureUnit) : Except CapturePlanError (Capture.CaptureRequest ℚ) :=
  validateCapturePlan plainCasing noDates unit pepperTurn [] (1 / 2)
    [⟨"alice".toList, false⟩, ⟨"family".toList, false⟩] [] false
    [("family".toList, ["alice".toList])]

/-- The fact of alice is replaced by one of the family. -/
theorem replaced_across_subjects :
    ∃ req, pepperCapture pepperUnit = .ok req ∧ req.subject = .group "family".toList ∧
      validateSupersedeTarget pepperUnit pepperTurn ["family".toList] [pepperHit] =
        .ok (some pepperHit.factId) ∧
      pepperHit.subjectId = .user "alice".toList ∧
      ¬ Guarded pepperUnit pepperTurn ["family".toList] [pepperHit] req.subject := by
  have haccepted : validateSupersedeTarget pepperUnit pepperTurn ["family".toList] [pepperHit] =
      .ok (some pepperHit.factId) := by decide +kernel
  have hfiled : (pepperCapture pepperUnit).map Capture.CaptureRequest.subject =
      .ok (.group "family".toList) := by decide +kernel
  rcases hreq : pepperCapture pepperUnit with e | req
  · rw [hreq] at hfiled
    simp [Except.map] at hfiled
  · rw [hreq] at hfiled
    have hsubject : req.subject = .group "family".toList := Except.ok.inj hfiled
    refine ⟨req, rfl, hsubject, haccepted, rfl, fun hguarded => ?_⟩
    obtain ⟨hit, hhit, -, hsame⟩ := hguarded.sound pepperHit.factId haccepted
    have hmem : hit = pepperHit := by
      have : targetHit pepperUnit [pepperHit] = some pepperHit := by decide +kernel
      rw [this] at hhit
      exact (Option.some.inj hhit).symm
    rw [hmem, hsubject] at hsame
    exact absurd hsame (by decide)

/-- With the subject written, the same claim is guarded. -/
theorem supersede_guard_written :
    ∃ req, pepperCapture { pepperUnit with subjectId := some "user:alice".toList } = .ok req ∧
      Guarded { pepperUnit with subjectId := some "user:alice".toList } pepperTurn
        ["family".toList] [pepperHit] req.subject := by
  rcases hreq : pepperCapture { pepperUnit with subjectId := some "user:alice".toList } with e | req
  · have hok : (pepperCapture { pepperUnit with
        subjectId := some "user:alice".toList }).toOption.isSome = true := by decide +kernel
    rw [hreq] at hok
    simp [Except.toOption] at hok
  · refine ⟨req, rfl, (supersede_guard_iff hreq).mpr ?_⟩
    rintro ⟨group, hit, hnone, -⟩
    simp at hnone

end Ingest

end Mwe
