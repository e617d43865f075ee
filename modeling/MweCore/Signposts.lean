import MweCore.Capture.Lists
import MweCore.WikiAdmin.Push

/-!
# Signposts

A signpost is a fact that says a project exists.  It stands on one of two pages of the wiki of the
project's owner: the description of the project on the page of projects, and one line a day on the
diary.  What a signpost is about is in its topics, and a new one replaces the one of the same
project and kind that stands there.

Writing one is a lookup and then a capture, and the sweep that copies the descriptions from the
registry does the same.  Writers and sweeps run side by side; `step` runs one of their steps.
`signs_once` says that no page ever has two signposts of a project and a kind, as long as calls
about one project do not overlap and none is broken off between the new fact and the retirement of
the old.
-/

namespace Mwe.Signposts

open Capture Str

/-! ## Topics -/

def topicSignpost : Str := "project-signpost".toList
def topicDescription : Str := "signpost-description".toList
def topicWikiPrefix : Str := "signpost-wiki:".toList
def topicDayPrefix : Str := "signpost-day:".toList

/-- The two kinds of signpost: the description, and the line of a day. -/
inductive Mark
  | description
  | day (day : Str)
  deriving DecidableEq

/-- The topic of a kind. -/
def Mark.topic : Mark → Str
  | .description => topicDescription
  | .day d => topicDayPrefix ++ d

/-- The topics of a signpost: `description_topics` and `activity_topics`. -/
def topics (project : Str) (mark : Mark) : List Str :=
  [topicSignpost, topicWikiPrefix ++ project, mark.topic]

/-- Whether a row has a topic. -/
def hasTopic (row : FactRow) (topic : Str) : Bool := row.topics.any fun t => t == topic

/-- Whether a row is a signpost for a project. -/
def isSignpostFor (row : FactRow) (project : Str) : Bool :=
  hasTopic row topicSignpost && hasTopic row (topicWikiPrefix ++ project)

/-- The day of a line. -/
def dayOf (row : FactRow) : Option Str := row.topics.findSome? (stripPrefix topicDayPrefix)

/-- The project of a signpost. -/
def projectOf (row : FactRow) : Option Str :=
  if hasTopic row topicSignpost then row.topics.findSome? (stripPrefix topicWikiPrefix) else none

/-! ## Requests -/

/-- Why a call fails. -/
inductive SignpostError
  | wiki (e : WikiError)
  | capture (e : CaptureFailure)
  | factIndex
  | notSmart (wikiId : WikiId)
  | notOwner (wikiId : WikiId) (owner caller : Str)
  | noOwningUser (wikiId : WikiId)
  | empty
  | tooLong (field : Str) (cap actual : ℕ)
  | badDay (got : Str)
  | badWikiId (got : Str)
  deriving DecidableEq

/-- What happened on a day. -/
structure ActivityLine where
  day : Str
  text : Str

/-- What a caller wants to say of a project. -/
structure SignpostRequest where
  projectWikiId : WikiId
  description : Option Str := none
  activity : Option ActivityLine := none

def maxDescriptionChars : ℕ := 400
def maxActivityChars : ℕ := 250

/-- The days a project keeps lines of, from its newest. -/
def activityWindowDays : ℤ := 5

/-- Refuse a text that is too long. -/
def checkCap (field : Str) (text : Str) (cap : ℕ) : Except SignpostError Unit :=
  if cap < text.length then .error (.tooLong field cap text.length) else .ok ()

/-- Trim a request and check it; `parseDay` reads a calendar day. -/
def validate (parseDay : Str → Option ℤ) (req : SignpostRequest) :
    Except SignpostError (Option Str × Option ActivityLine) := do
  let description := (req.description.map trim).filter fun d => !d.isEmpty
  let activity := (req.activity.map fun a => (⟨trim a.day, trim a.text⟩ : ActivityLine)).filter
    fun a => !a.text.isEmpty
  if description.isNone && activity.isNone then throw .empty
  match description with
  | some text => checkCap "description".toList text maxDescriptionChars
  | none => pure ()
  match activity with
  | some line =>
    checkCap "activity".toList line.text maxActivityChars
    if (parseDay line.day).isNone then throw (.badDay line.day)
  | none => pure ()
  return (description, activity)

/-! ## Where signposts go -/

def projectsFilename : Str := "@projects.md".toList
def projectDiaryFilename : Str := "@projects_diary.md".toList

/-- Where the signposts of a project stand, and in whose name. -/
structure Target where
  ownerWikiId : WikiId
  ownerPrincipal : Principal
  sourcePath : Str
  diarySourcePath : Str
  title : Str
  allow : List Principal

/-- The name of a project. -/
def projectTitle (wikiMeta : WikiMeta) : Str :=
  if (trim wikiMeta.title).isEmpty then wikiMeta.slug.val else trim wikiMeta.title

section Targets

variable (tree : WikiTree) (d : HostDisk)

/-- The user a project's signposts belong to. -/
def targetOwner (projectWikiId : WikiId) : Except SignpostError Str := do
  let project ← (tree.locate d projectWikiId).mapError .wiki
  if !project.wikiMeta.smart then throw (.notSmart projectWikiId)
  match ← (tree.resolveScopePrincipal d project.wikiMeta).mapError .wiki with
  | some (.user owner) => return owner
  | _ => throw (.noOwningUser projectWikiId)

/-- Where the signposts of a project stand. -/
def targetFor (projectWikiId : WikiId) (owner : Str) : Except SignpostError Target := do
  let project ← (tree.locate d projectWikiId).mapError .wiki
  let ownerWikiId ← (WikiId.parse owner).mapError fun _ => .badWikiId owner
  let handle ← (tree.locate d ownerWikiId).mapError .wiki
  return {
    ownerWikiId
    ownerPrincipal := .user owner
    sourcePath := handle.sourcePath projectsFilename
    diarySourcePath := handle.sourcePath projectDiaryFilename
    title := projectTitle project.wikiMeta
    allow := project.wikiMeta.sharedWith }

/-- The same for a caller, who must be the owner. -/
def resolveTarget (caller : Str) (projectWikiId : WikiId) : Except SignpostError Target := do
  let owner ← targetOwner tree d projectWikiId
  if owner ≠ caller then throw (.notOwner projectWikiId owner caller)
  targetFor tree d projectWikiId owner

end Targets

/-! ## Putting a signpost -/

/-- A signpost to put on a page, and the one it replaces. -/
structure PutRequest where
  wikiId : WikiId
  page : Str
  sourcePath : Str
  project : Str
  mark : Mark
  body : Str
  subject : Principal
  allow : List Principal
  previous : Option FactRow

/-- The text of a description. -/
def descriptionBody (casing : Casing) (title text : Str) : Str :=
  if (casing.toLowercase title).isPrefixOf (casing.toLowercase text) then text
  else title ++ " — ".toList ++ text

/-- The text of a line. -/
def activityBody (day title text : Str) : Str :=
  day ++ " — ".toList ++ title ++ ": ".toList ++ text

/-- The signpost of a project and a kind that stands on a page. -/
def findSign (facts : FactTable) (sourcePath project : Str) (mark : Mark) : Option FactRow :=
  ((FactIndex.findActiveBySourcePath facts sourcePath).filter fun row =>
    isSignpostFor row project).find? fun row => hasTopic row mark.topic

/-- The description of a project, to be put. -/
def describe (casing : Casing) (target : Target) (project text : Str)
    (previous : Option FactRow) : PutRequest where
  wikiId := target.ownerWikiId
  page := projectsFilename
  sourcePath := target.sourcePath
  project := project
  mark := .description
  body := descriptionBody casing target.title text
  subject := target.ownerPrincipal
  allow := target.allow
  previous := previous

/-- The line of a day, to be put. -/
def note (target : Target) (project : Str) (line : ActivityLine) (previous : Option FactRow) :
    PutRequest where
  wikiId := target.ownerWikiId
  page := projectDiaryFilename
  sourcePath := target.diarySourcePath
  project := project
  mark := .day line.day
  body := activityBody line.day target.title line.text
  subject := target.ownerPrincipal
  allow := target.allow
  previous := previous

/-- What the disk, the embedder and the database answer during a step. -/
structure Answer (T : Type*) where
  /-- whether a reading of the database answers -/
  reads : Bool := true
  around : Around
  whenUnstated : T
  now : Str
  /-- what the index is told when the region of a retired signpost is taken off its page -/
  strip : List RegionRepair := []
  tree : WikiTree
  disk : HostDisk
  /-- the page of projects as it stands, and whether it can be written -/
  page : Option Str := none
  writes : Bool := true

section Put

variable {S T : Type*} [LinearOrder S] [LinearOrder T] (floats : Floats S) (casing : Casing)
  (chrono : Chrono T)

/-- The claim a signpost is, compared with nothing. -/
def PutRequest.capture (req : PutRequest) : CaptureRequest S where
  wikiId := req.wikiId
  page := some req.page
  body := req.body
  subject := req.subject
  allow := req.allow
  sender := some req.subject
  factType := some "signpost".toList
  topics := topics req.project req.mark
  dedupThreshold := some floats.off

/-- The call that replaces a signpost. -/
def PutRequest.replacing (req : PutRequest) (prev : FactId) (a : Answer T) : Call S T where
  around := a.around
  previous := prev
  req := req.capture floats
  whenUnstated := a.whenUnstated
  supersededAt := a.now
  strip := a.strip

/-- What happened to a signpost. -/
inductive SignpostOutcome
  | created (factId : FactId)
  | updated (factId : FactId)
  | unchanged (factId : FactId)
  deriving DecidableEq

/-- Put a signpost in the place of the one before. -/
def put (facts : FactTable) (req : PutRequest) (a : Answer T) :
    Except SignpostError SignpostOutcome × FactTable :=
  match req.previous with
  | some prev =>
    if prev.text = req.body then (.ok (.unchanged prev.factId), facts)
    else
      match wikiSupersede floats casing chrono facts (req.replacing floats prev.factId a) with
      | (.error e, facts) => (.error (.capture e), facts)
      | (.ok outcome, facts) => (.ok (.updated outcome.factId), facts)
  | none =>
    match wikiCapture floats casing a.around facts (req.capture floats) with
    | (.error e, facts) => (.error (.capture e), facts)
    | (.ok outcome, facts) =>
      match outcome.action with
      | .captured _ _ _ => (.ok (.created outcome.factId), facts)
      | _ => (.ok (.unchanged outcome.factId), facts)

end Put

/-- Forget a fact, and take its region off its page. -/
def wikiForget {T : Type*} (facts : FactTable) (factId : FactId) (reason : Str) (a : Answer T) :
    FactTable :=
  let (touched, facts) := FactIndex.markForgotten facts factId reason a.now
  if 0 < touched then a.strip.foldl RegionRepair.run facts else facts

/-! ## The window of the diary -/

/-- The lines of a project on a page, with their days. -/
def linesOf (parseDay : Str → Option ℤ) (facts : FactTable) (sourcePath project : Str) :
    List (FactId × ℤ) :=
  ((FactIndex.findActiveBySourcePath facts sourcePath).filter fun row =>
    isSignpostFor row project).filterMap fun row =>
      ((dayOf row).bind parseDay).map fun day => (row.factId, day)

/-- The newest of some days. -/
def newest (days : List ℤ) : Option ℤ := days.max?

/-- The lines that have fallen out of the window. -/
def fallen (parseDay : Str → Option ℤ) (facts : FactTable) (sourcePath project : Str) :
    List FactId :=
  let lines := linesOf parseDay facts sourcePath project
  match newest (lines.map Prod.snd) with
  | none => []
  | some day => (lines.filter fun l => decide (l.2 < day - (activityWindowDays - 1))).map Prod.fst

/-! ## The page of projects -/

/-- The top of the page of projects. -/
def projectsHeader : Str :=
  "# Projects\n\nWhat each of these is, in one line. The work itself lives in the \n".toList ++
    "project's own wiki — this page only says the projects exist.\n".toList

/-- The signposts of a page, project by project. -/
def byProject (rows : List FactRow) : List FactRow :=
  ((rows.filterMap projectOf).dedup.insertionSort fun p q => p ≤ q).flatMap fun project =>
    rows.filter fun row => projectOf row = some project

/-- The page of projects, and where each signpost is on it. -/
def compose (rows : List FactRow) : Str × List (FactId × ℤ × ℤ) :=
  rows.foldl (fun acc row =>
    let out := acc.1 ++ ['\n']
    let stop := out ++ renderMarker row.factId row.text
    (stop ++ ['\n'], acc.2 ++ [(row.factId, offset (len out), offset (len stop))]))
    (projectsHeader, [])

/-- Write the page of projects anew, unless it is as it should be. -/
def renderPage {T : Type*} (facts : FactTable) (sourcePath : Str) (a : Answer T) : FactTable :=
  let rows := FactIndex.findActiveBySourcePath facts sourcePath
  let (out, spans) := compose (byProject rows)
  if rows.isEmpty || a.page == some out || !a.writes then facts
  else spans.foldl (fun facts span =>
    FactIndex.moveRegion facts span.1 sourcePath (some span.2.1, some span.2.2) a.now) facts

/-! ## Writers and sweeps, side by side -/

/-- A row of `smart_wikis`. -/
structure SmartWiki where
  wikiId : Str
  description : Option Str

/-- What a call has yet to do. -/
inductive Job
  | readSign (target : Target) (project : Str) (description : Option Str)
      (activity : Option ActivityLine)
  | readDiary (target : Target) (project : Str) (puts : List PutRequest)
      (activity : Option ActivityLine)
  | put (req : PutRequest)
  | roll (sourcePath project : Str)
  | forget (factId : FactId) (reason : Str)
  | project (row : SmartWiki)
  | render (sourcePath : Str)

/-- A call: its jobs, and the pages of projects it is to write anew at its end. -/
structure Worker where
  jobs : List Job
  pages : List Str := []

/-- The fact index, and the calls there have been; a call that is over is `none`. -/
structure System where
  facts : FactTable
  workers : List (Option Worker) := []

/-- Something that happens: a call of a tool, a sweep, a step of one of them, or anything else that
writes facts. -/
inductive Event (T : Type*)
  | write (caller : Str) (req : SignpostRequest) (tree : WikiTree) (disk : HostDisk)
  | projectDescriptions (rows : List SmartWiki)
  | work (i : ℕ) (a : Answer T)
  | others (facts : FactTable)

/-- What of an active row makes it a signpost: where it is, and its topics. -/
def tagOf (facts : FactTable) (id : FactId) : Option (Str × List Str) :=
  ((facts.get? id).filter FactRow.isActive).map fun r => (r.sourcePath, r.topics)

section Step

variable {S T : Type*} [LinearOrder S] [LinearOrder T] (floats : Floats S) (casing : Casing)
  (chrono : Chrono T) (parseDay : Str → Option ℤ)

/-- What is left of a call after one of its jobs, if anything: the jobs that come of it, and the
page it is to write anew. -/
def runJob (facts : FactTable) (a : Answer T) : Job → Option (List Job × Option Str) × FactTable
  | .readSign target project description activity =>
    if !a.reads then (none, facts)
    else
      let puts := description.toList.map fun text => describe casing target project text
        (findSign facts target.sourcePath project .description)
      (some ([.readDiary target project puts activity], none), facts)
  | .readDiary target project puts activity =>
    if !a.reads then (none, facts)
    else
      let lines := activity.toList.map fun line => note target project line
        (findSign facts target.diarySourcePath project (.day line.day))
      (some ((puts ++ lines).map Job.put ++ [.roll target.diarySourcePath project], none), facts)
  | .put req =>
    match put floats casing chrono facts req a with
    | (.error _, facts) => (none, facts)
    | (.ok _, facts) => (some ([], none), facts)
  | .roll sourcePath project =>
    if !a.reads then (none, facts)
    else (some ((fallen parseDay facts sourcePath project).map fun id =>
      .forget id "signpost_window".toList, none), facts)
  | .forget factId reason =>
    if !a.reads then (none, facts) else (some ([], none), wikiForget facts factId reason a)
  | .project row =>
    match WikiId.parse row.wikiId with
    | .error _ => (some ([], none), facts)
    | .ok projectWikiId =>
      match do
          let owner ← targetOwner a.tree a.disk projectWikiId
          targetFor a.tree a.disk projectWikiId owner with
      | .error _ => (some ([], none), facts)
      | .ok target =>
        if !a.reads then (none, facts)
        else
          let previous := findSign facts target.sourcePath row.wikiId .description
          let jobs := match row.description with
            | some text => [.put (describe casing target row.wikiId text previous)]
            | none => previous.toList.map fun prev =>
              .forget prev.factId "signpost_description_withdrawn".toList
          (some (jobs, some target.sourcePath), facts)
  | .render sourcePath => (some ([], none), renderPage facts sourcePath a)

/-- The call once a job is done; the pages are written anew when nothing else is left. -/
def Worker.next (rest : List Job) (pages : List Str) (done : List Job × Option Str) :
    Option Worker :=
  let jobs := done.1 ++ rest
  let pages := done.2.elim pages fun page => if page ∈ pages then pages else
    pages.orderedInsert (fun p q => p ≤ q) page
  match jobs, pages with
  | [], [] => none
  | [], page :: pages => some ⟨[.render page], pages⟩
  | jobs, pages => some ⟨jobs, pages⟩

/-- Whether an answer is one the world can give: the id is new, and a repair of a page tells of the
rows of that page. -/
def Answer.Fits (a : Answer T) (facts : FactTable) : Job → Prop
  | .put req => IsFresh facts a.around.freshId ∧ a.around.sourcePath = req.sourcePath ∧
      ∀ repair ∈ a.strip, repair.OfItsPage a.around facts
  | _ => ∀ repair ∈ a.strip, repair.OfItsPage a.around facts

instance (a : Answer T) (facts : FactTable) (job : Job) : Decidable (a.Fits facts job) := by
  cases job <;> unfold Answer.Fits <;> infer_instance

/-- Whether every signpost that stands stood before, where it stood and for what it stood. -/
def Leaves (facts facts' : FactTable) : Prop :=
  ∀ r ∈ facts'.rows, r.isActive = true → hasTopic r topicSignpost = true →
    tagOf facts r.factId = some (r.sourcePath, r.topics)

instance (facts facts' : FactTable) : Decidable (Leaves facts facts') :=
  inferInstanceAs (Decidable (∀ r ∈ facts'.rows, _))

/-- One step. -/
def step (s : System) : Event T → Option System
  | .write caller req tree disk =>
    match do
        let valid ← validate parseDay req
        let target ← resolveTarget tree disk caller req.projectWikiId
        return (valid, target) with
    | .error _ => some s
    | .ok ((description, activity), target) =>
      some { s with
        workers := s.workers ++
          [some ⟨[.readSign target req.projectWikiId.val description activity], []⟩] }
  | .projectDescriptions rows =>
    some { s with workers := s.workers ++ [Worker.next [] [] (rows.map .project, none)] }
  | .work i a =>
    match s.workers[i]? with
    | some (some ⟨job :: rest, pages⟩) =>
      if a.Fits s.facts job then
        let done := runJob floats casing chrono parseDay s.facts a job
        some {
          facts := done.2
          workers := s.workers.set i (done.1.bind (Worker.next rest pages)) }
      else none
    | _ => none
  | .others facts => if Leaves s.facts facts then some { s with facts } else none

end Step

/-! ## One signpost of a project and a kind -/

/-- Whether topics are those of a signpost of a project and a kind. -/
def IsSignOf (project : Str) (mark : Mark) (tags : List Str) : Prop :=
  topicSignpost ∈ tags ∧ topicWikiPrefix ++ project ∈ tags ∧ mark.topic ∈ tags

/-- A signpost of a project and a kind stands on a page. -/
def Standing (facts : FactTable) (sourcePath project : Str) (mark : Mark) (id : FactId) : Prop :=
  ∃ tags, tagOf facts id = some (sourcePath, tags) ∧ IsSignOf project mark tags

/-- No page has two signposts of a project and a kind. -/
def OneSign (facts : FactTable) : Prop :=
  ∀ sourcePath project mark id id', Standing facts sourcePath project mark id →
    Standing facts sourcePath project mark id' → id = id'

/-- Two texts that differ in a place of their beginnings are two. -/
lemma append_ne {u v p q : Str} (n : ℕ) (hu : n < u.length) (hv : n < v.length)
    (hne : u[n]? ≠ v[n]?) : u ++ p ≠ v ++ q := by
  intro h
  rw [← List.getElem?_append_left hu, h, List.getElem?_append_left hv] at hne
  exact hne rfl

lemma wiki_ne_signpost (project : Str) : topicWikiPrefix ++ project ≠ topicSignpost := by
  rw [← List.append_nil topicSignpost]
  exact append_ne 0 (by decide) (by decide) (by decide)

lemma wiki_ne_mark (project : Str) (mark : Mark) : topicWikiPrefix ++ project ≠ mark.topic := by
  rcases mark with _ | d
  · change _ ≠ topicDescription
    rw [← List.append_nil topicDescription]
    exact append_ne 9 (by decide) (by decide) (by decide)
  · exact append_ne 9 (by decide) (by decide) (by decide)

lemma signpost_ne_mark (mark : Mark) : topicSignpost ≠ mark.topic := by
  rw [← List.append_nil topicSignpost]
  rcases mark with _ | d
  · change _ ≠ topicDescription
    rw [← List.append_nil topicDescription]
    exact append_ne 0 (by decide) (by decide) (by decide)
  · exact append_ne 0 (by decide) (by decide) (by decide)

lemma topic_inj {mark mark' : Mark} (h : mark.topic = mark'.topic) : mark = mark' := by
  have hne : ∀ d : Str, topicDescription ≠ topicDayPrefix ++ d := by
    intro d
    rw [← List.append_nil topicDescription]
    exact append_ne 10 (by decide) (by decide) (by decide)
  rcases mark with _ | d <;> rcases mark' with _ | d'
  · rfl
  · exact absurd h (hne d')
  · exact absurd h.symm (hne d)
  · rw [List.append_cancel_left h]

/-- The topics of a signpost are those of one project and one kind. -/
lemma isSignOf_topics {project project' : Str} {mark mark' : Mark} :
    IsSignOf project' mark' (topics project mark) ↔ project' = project ∧ mark' = mark := by
  constructor
  · rintro ⟨-, hproject, hmark⟩
    simp only [topics, List.mem_cons, List.not_mem_nil, or_false] at hproject hmark
    constructor
    · rcases hproject with h | h | h
      · exact absurd h (wiki_ne_signpost project')
      · exact List.append_cancel_left h
      · exact absurd h (wiki_ne_mark project' mark)
    · rcases hmark with h | h | h
      · exact absurd h.symm (signpost_ne_mark mark')
      · exact absurd h.symm (wiki_ne_mark project mark')
      · exact topic_inj h
  · rintro ⟨rfl, rfl⟩
    exact ⟨List.mem_cons_self, by simp [topics], by simp [topics]⟩

/-! ## What the statements do to the signposts -/

section Tags

variable {S T : Type*} [LinearOrder S] [LinearOrder T] {floats : Floats S} {casing : Casing}
  {chrono : Chrono T} {facts facts' facts'' : FactTable} {around : Around} {id : FactId}
  {tag : Str × List Str} {tags : List Str} {r : FactRow}

lemma tagOf_eq_some_iff : tagOf facts id = some tag ↔
    ∃ r ∈ facts, r.factId = id ∧ r.isActive = true ∧ (r.sourcePath, r.topics) = tag := by
  unfold tagOf
  simp only [Option.map_eq_some_iff, Option.filter_eq_some_iff, Sql.Table.get?_eq_some_iff,
    and_assoc]

/-- The signposts of a table are signposts of another, or one that was written. -/
def Written (facts : FactTable) (around : Around) (tags : List Str) (facts' : FactTable) : Prop :=
  ∀ id tag, tagOf facts' id = some tag →
    tagOf facts id = some tag ∨ id = around.freshId ∧ tag = (around.sourcePath, tags)

/-- A table whose active rows are active rows of another, where they were and with their topics. -/
def Shrinks (facts facts' : FactTable) : Prop :=
  ∀ id tag, tagOf facts' id = some tag → tagOf facts id = some tag

lemma Shrinks.refl (facts : FactTable) : Shrinks facts facts := fun _ _ h => h

lemma Shrinks.trans (h : Shrinks facts facts') (h' : Shrinks facts' facts'') :
    Shrinks facts facts'' := fun id tag htag => h id tag (h' id tag htag)

lemma Written.shrink (h : Written facts around tags facts') (h' : Shrinks facts' facts'') :
    Written facts around tags facts'' := fun id tag htag => h id tag (h' id tag htag)

/-- An update that makes no row active and moves none. -/
lemma shrinks_update {sel : FactRow → Bool} {set : FactRow → FactRow}
    (hset : ∀ r, (set r).factId = r.factId)
    (h : ∀ r ∈ facts, sel r = true → (set r).isActive = true →
      r.isActive = true ∧ ((set r).sourcePath, (set r).topics) = (r.sourcePath, r.topics)) :
    Shrinks facts (facts.update sel set hset) := by
  intro id tag htag
  obtain ⟨r', hr', hid, hactive, rfl⟩ := tagOf_eq_some_iff.mp htag
  obtain ⟨r, hr, rfl⟩ := Sql.Table.mem_update_iff.mp hr'
  by_cases hsel : sel r = true
  · rw [if_pos hsel] at hid hactive ⊢
    obtain ⟨hbefore, hsame⟩ := h r hr hsel hactive
    exact tagOf_eq_some_iff.mpr ⟨r, hr, (hset r).symm.trans hid, hbefore, hsame.symm⟩
  · rw [if_neg hsel] at hid hactive ⊢
    exact tagOf_eq_some_iff.mpr ⟨r, hr, hid, hactive, rfl⟩

/-- A repair of a page that tells of its own rows moves no signpost. -/
lemma Written.run (h : Written facts around tags facts') {repair : RegionRepair}
    (hpage : repair.OfItsPage around facts) : Shrinks facts' (repair.run facts') := by
  rcases repair with ⟨factId, sourcePath, start, stop, now⟩ | ⟨factId, sourcePath, now⟩ |
    ⟨factId, now⟩
  · refine shrinks_update (FactRow.factId_atRegion _ _ now) fun r hr hsel _ => ?_
    obtain ⟨hid, hactive⟩ : r.factId = factId ∧ r.isActive = true := by simpa using hsel
    have htag : tagOf facts' factId = some (r.sourcePath, r.topics) :=
      tagOf_eq_some_iff.mpr ⟨r, hr, hid, hactive, rfl⟩
    refine ⟨hactive, ?_⟩
    change (sourcePath, r.topics) = _
    rcases h factId _ htag with hold | ⟨hfresh, hnew⟩
    · obtain ⟨r₀, hr₀, hid₀, -, hsame⟩ := tagOf_eq_some_iff.mp hold
      rw [← hpage.1 r₀ hr₀ hid₀, (Prod.mk.inj hsame).1]
    · rw [← hpage.2 hfresh, (Prod.mk.inj hnew).1]
  · refine shrinks_update (FactRow.factId_forgotten _ now) fun r _ _ hactive => ?_
    simp [FactRow.forgotten, FactRow.isActive] at hactive
  · refine @shrinks_update _ _ (unplaced now) (fun _ => rfl) fun r _ hsel hactive => ?_
    have hretired : r.isActive = false := by simpa using (Bool.and_eq_true_iff.mp hsel).2
    have hsame : (unplaced now r).isActive = r.isActive := rfl
    rw [hsame, hretired] at hactive
    cases hactive

lemma Written.strip {strip : List RegionRepair} (h : Written facts around tags facts')
    (hpage : ∀ repair ∈ strip, repair.OfItsPage around facts) :
    Shrinks facts' (strip.foldl RegionRepair.run facts') := by
  induction strip generalizing facts' with
  | nil => exact Shrinks.refl _
  | cons repair strip ih =>
    have hfirst := h.run (hpage repair List.mem_cons_self)
    exact hfirst.trans
      (ih (h.shrink hfirst) fun x hx => hpage x (List.mem_cons_of_mem _ hx))

variable {req : CaptureRequest S} {page : Str} {sourceRef : Option Str}

omit [LinearOrder S] in
/-- The fact that is written has the topics of the claim. -/
lemma topics_writeFact (hfresh : ∀ r ∈ facts, r.factId ≠ around.freshId)
    (hget : (writeFact around facts req page sourceRef).2.get? around.freshId = some r) :
    r.topics = req.topics := by
  have hnone : facts.get? around.freshId = none := Sql.Table.get?_eq_none_iff.mpr hfresh
  unfold writeFact at hget
  cases hpage : around.page with
  | none => simp [hpage, hnone] at hget
  | some raw =>
    simp only [hpage] at hget
    split at hget
    · simp [hnone] at hget
    next inserted hinserted =>
    have hinsert : facts.insert ((capturedFact around req page sourceRef).row around.now) =
        some inserted := by
      split_ifs at hinserted
      exact hinserted
    have hrow : inserted.get? around.freshId =
        some ((capturedFact around req page sourceRef).row around.now) := by
      rw [Sql.Table.get?_insert hinsert]
      exact if_pos rfl
    split_ifs at hget
    · rw [FactIndex.markForgotten, FactIndex.get?_updateActive, hrow, Option.map_some] at hget
      rw [← Option.some.inj hget]
      split_ifs <;> rfl
    · rw [hrow] at hget
      rw [← Option.some.inj hget]
      rfl
    · rw [FactIndex.moveRegion, Sql.Table.get?_update, hrow, Option.map_some] at hget
      rw [← Option.some.inj hget]
      split_ifs <;> rfl
    · rw [hrow] at hget
      rw [← Option.some.inj hget]
      rfl

omit [LinearOrder S] in
/-- Writing a fact adds one signpost at most, and none when no row is left behind. -/
lemma written_writeFact (hfresh : ∀ r ∈ facts, r.factId ≠ around.freshId) :
    Written facts around req.topics (writeFact around facts req page sourceRef).2 ∧
      (around.leavesRow = false →
        Shrinks facts (writeFact around facts req page sourceRef).2) := by
  have hcases : ∀ id tag, tagOf (writeFact around facts req page sourceRef).2 id = some tag →
      tagOf facts id = some tag ∨ around.leavesRow = true ∧ id = around.freshId ∧
        tag = (around.sourcePath, req.topics) := by
    intro id tag htag
    by_cases hid : id = around.freshId
    · obtain ⟨r, hr, hrid, hactive, rfl⟩ := tagOf_eq_some_iff.mp htag
      have hget := Sql.Table.get?_eq_some_iff.mpr ⟨hr, hrid.trans hid⟩
      obtain ⟨hleaves, -, hpath⟩ := @writeFact_fresh S asciiCasing _ _ _ _ _ hfresh _ hget hactive
      exact .inr ⟨hleaves, hid, by rw [hpath, topics_writeFact hfresh hget]⟩
    · rw [tagOf, get?_writeFact hid] at htag
      exact .inl htag
  refine ⟨fun id tag htag => (hcases id tag htag).imp_right And.right, fun hnone id tag htag => ?_⟩
  rcases hcases id tag htag with hold | ⟨hleaves, -⟩
  · exact hold
  · rw [hnone] at hleaves
    cases hleaves

/-- Superseding a fact retires it and adds no signpost. -/
lemma shrinks_markSuperseded {previous successor : FactId} {whenUnstated : T} {now : Str} :
    Shrinks facts (FactIndex.markSuperseded chrono facts none previous successor whenUnstated
        now).2 ∧
      tagOf (FactIndex.markSuperseded chrono facts none previous successor whenUnstated now).2
        previous = none := by
  have hrows := fun r' => @active_markSuperseded T _ chrono facts none previous successor
    whenUnstated now r'
  constructor
  · intro id tag htag
    obtain ⟨r, hr, hid, hactive, rfl⟩ := tagOf_eq_some_iff.mp htag
    exact tagOf_eq_some_iff.mpr ⟨r, (hrows r hr hactive).1, hid, hactive, rfl⟩
  · refine Option.eq_none_iff_forall_ne_some.mpr fun tag htag => ?_
    obtain ⟨r, hr, hid, hactive, rfl⟩ := tagOf_eq_some_iff.mp htag
    exact (hrows r hr hactive).2 hid

/-- What a replacement does to the signposts: the new one is there at most, and only if it is filed;
then, if the old one is retired, that one is gone. -/
lemma written_wikiSupersede {call : Call S T} (hfresh : IsFresh facts call.around.freshId)
    (hstrip : ∀ repair ∈ call.strip, repair.OfItsPage call.around facts) :
    Written facts call.around call.req.topics (wikiSupersede floats casing chrono facts call).2 ∧
      (call.around.files call.req = false →
        Shrinks facts (wikiSupersede floats casing chrono facts call).2) ∧
      (call.around.files call.req = true → call.around.retires = true →
        tagOf (wikiSupersede floats casing chrono facts call).2 call.previous = none) := by
  have hkeys : ∀ r ∈ facts, r.factId ≠ call.around.freshId := fun r hr => (hfresh r hr).1
  by_cases hrefused : call.around.reads = false ∨ facts.get? call.previous = none ∨
      (accept call.around { call.req with dedupThreshold := some floats.off }).isOk = false
  · rw [wikiSupersede_refused hrefused]
    refine ⟨fun id tag htag => .inl htag, fun _ => Shrinks.refl _, fun hfiles _ => ?_⟩
    rw [isOk_accept] at hrefused
    rcases hrefused with hreads | hget | haccept
    · simp [Around.files, hreads] at hfiles
    · rw [tagOf, hget]
      rfl
    · simp [Around.files, haccept] at hfiles
  simp only [not_or, Bool.not_eq_false] at hrefused
  obtain ⟨hreads, hget, haccepted⟩ := hrefused
  cases haccept : accept call.around { call.req with dedupThreshold := some floats.off } with
  | error e =>
    rw [haccept] at haccepted
    cases haccepted
  | ok accepted =>
    obtain ⟨page, req'⟩ := accepted
    rw [isOk_accept] at haccepted
    have htopics : req'.topics = call.req.topics := by
      obtain ⟨-, -, -, hnormalized, -⟩ := accept_eq_ok_iff.mp haccept
      rw [normalize_eq_ok hnormalized]
    obtain ⟨hwritten, hnone⟩ :=
      @written_writeFact S facts call.around req' page none hkeys
    rw [htopics] at hwritten
    have hleaves : call.around.files call.req = call.around.leavesRow := by
      rw [Around.files, haccepted, hreads, Bool.true_and, Bool.true_and]
    rw [wikiSupersede_snd hkeys haccept hreads (Option.isSome_iff_ne_none.mpr hget), hleaves]
    split_ifs with hdone
    · obtain ⟨hshrinks, hgone⟩ := @shrinks_markSuperseded T _ chrono
        (writeFact call.around facts req' page none).2 call.previous call.around.freshId
        call.whenUnstated call.supersededAt
      have hmarked := hwritten.shrink hshrinks
      have hstripped := hmarked.strip hstrip
      refine ⟨hmarked.shrink hstripped, fun hno => ?_, fun _ _ => ?_⟩
      · exact ((hnone hno).trans hshrinks).trans hstripped
      · refine Option.eq_none_iff_forall_ne_some.mpr fun tag htag => ?_
        rw [hstripped _ _ htag] at hgone
        cases hgone
    · refine ⟨hwritten, hnone, fun hfiles hretires => absurd ?_ hdone⟩
      simp only [Around.leavesRow, Bool.and_eq_true] at hfiles
      rw [hfiles.1.1, hfiles.1.2, hretires]
      rfl

/-- What a capture that is compared with nothing does to the signposts. -/
lemma written_wikiCapture (hoff : req.dedupThreshold = some floats.off)
    (hfresh : IsFresh facts around.freshId) :
    Written facts around req.topics (wikiCapture floats casing around facts req).2 ∧
      (around.files req = false →
        Shrinks facts (wikiCapture floats casing around facts req).2) := by
  have hkeys : ∀ r ∈ facts, r.factId ≠ around.freshId := fun r hr => (hfresh r hr).1
  unfold wikiCapture wikiCaptureWithSource
  cases haccept : accept around req with
  | error e => exact ⟨fun id tag htag => .inl htag, fun _ => Shrinks.refl _⟩
  | ok accepted =>
    obtain ⟨page, req'⟩ := accepted
    cases hreads : around.reads with
    | false => exact ⟨fun id tag htag => .inl (by simpa using htag), fun _ => Shrinks.refl _⟩
    | true =>
      obtain ⟨-, -, -, hnormalized, -⟩ := accept_eq_ok_iff.mp haccept
      have hreq := normalize_eq_ok hnormalized
      have hoff' : req'.dedupThreshold = some floats.off := by
        rw [hreq]
        exact hoff
      have htopics : req'.topics = req.topics := by rw [hreq]
      simp only [Bool.not_true, Bool.false_eq_true, if_false, repeatedFact_off hoff']
      obtain ⟨hwritten, hnone⟩ := @written_writeFact S facts around req' page none hkeys
      refine ⟨htopics ▸ hwritten, fun hfiles => hnone ?_⟩
      rw [Around.files, haccept, hreads] at hfiles
      exact hfiles

omit [LinearOrder T] in
/-- Forgetting a fact adds no signpost. -/
lemma shrinks_wikiForget {a : Answer T} {reason : Str}
    (hstrip : ∀ repair ∈ a.strip, repair.OfItsPage a.around facts) :
    Shrinks facts (wikiForget facts id reason a) := by
  have hforgotten : Shrinks facts (FactIndex.markForgotten facts id reason a.now).2 := by
    refine shrinks_update (FactRow.factId_forgotten reason a.now) fun r _ _ hactive => ?_
    simp [FactRow.forgotten, FactRow.isActive] at hactive
  unfold wikiForget
  dsimp only
  split_ifs
  · have hwritten : Written facts a.around [] (FactIndex.markForgotten facts id reason a.now).2 :=
      fun id tag htag => .inl (hforgotten id tag htag)
    exact hforgotten.trans (hwritten.strip hstrip)
  · exact hforgotten

/-- Stamping rows of a page with where they are on it moves none of them. -/
lemma shrinks_moves {spans : List (FactId × ℤ × ℤ)} {sourcePath now : Str}
    (h : ∀ span ∈ spans, ∀ tag, tagOf facts span.1 = some tag → tag.1 = sourcePath) :
    Shrinks facts (spans.foldl (fun facts span =>
      FactIndex.moveRegion facts span.1 sourcePath (some span.2.1, some span.2.2) now) facts) := by
  induction spans generalizing facts with
  | nil => exact Shrinks.refl facts
  | cons span spans ih =>
    have hfirst : Shrinks facts (FactIndex.moveRegion facts span.1 sourcePath
        (some span.2.1, some span.2.2) now) := by
      refine shrinks_update (FactRow.factId_atRegion _ _ now) fun r hr hsel _ => ?_
      obtain ⟨hid, hactive⟩ : r.factId = span.1 ∧ r.isActive = true := by simpa using hsel
      have hpath := h span List.mem_cons_self _ (tagOf_eq_some_iff.mpr ⟨r, hr, hid, hactive, rfl⟩)
      refine ⟨hactive, ?_⟩
      change (sourcePath, r.topics) = _
      rw [← hpath]
    refine hfirst.trans (ih fun span' hspan tag htag => ?_)
    exact h span' (List.mem_cons_of_mem _ hspan) tag (hfirst _ _ htag)

/-- The page names the rows it was made of. -/
lemma fst_mem_compose {rows : List FactRow} {span : FactId × ℤ × ℤ}
    (h : span ∈ (compose rows).2) : ∃ r ∈ rows, span.1 = r.factId := by
  have hfold : ∀ (rows : List FactRow) (acc : Str × List (FactId × ℤ × ℤ)),
      span ∈ (rows.foldl (fun acc row =>
        let out := acc.1 ++ ['\n']
        let stop := out ++ renderMarker row.factId row.text
        (stop ++ ['\n'], acc.2 ++ [(row.factId, offset (len out), offset (len stop))])) acc).2 →
      span ∈ acc.2 ∨ ∃ r ∈ rows, span.1 = r.factId := by
    intro rows
    induction rows with
    | nil => exact fun acc h => .inl h
    | cons row rows ih =>
      intro acc h
      rcases ih _ h with h | ⟨r, hr, hspan⟩
      · rcases List.mem_append.mp h with h | h
        · exact .inl h
        · rw [List.mem_singleton.mp h]
          exact .inr ⟨row, List.mem_cons_self, rfl⟩
      · exact .inr ⟨r, List.mem_cons_of_mem _ hr, hspan⟩
  rcases hfold rows _ h with h | h
  · exact absurd h List.not_mem_nil
  · exact h

omit [LinearOrder T] in
/-- Writing the page anew moves no signpost. -/
lemma shrinks_renderPage {a : Answer T} {sourcePath : Str} :
    Shrinks facts (renderPage facts sourcePath a) := by
  unfold renderPage
  dsimp only
  split_ifs
  · exact Shrinks.refl facts
  · refine shrinks_moves fun span hspan tag htag => ?_
    obtain ⟨r, hr, hid⟩ := fst_mem_compose hspan
    obtain ⟨project, -, hproject⟩ := List.mem_flatMap.mp hr
    obtain ⟨hmem, hon⟩ := List.mem_filter.mp (List.mem_filter.mp hproject).1
    obtain ⟨r', hr', hid', -, rfl⟩ := tagOf_eq_some_iff.mp htag
    obtain rfl := Sql.Table.eq_of_key_eq hmem hr' (hid.symm.trans hid'.symm)
    simpa using (Bool.and_eq_true_iff.mp hon).1

end Tags

/-! ## Writing a signpost -/

/-- A signpost to be put replaces the one that stands in its place, if one does. -/
def Current (facts : FactTable) (req : PutRequest) : Prop :=
  ∀ id, Standing facts req.sourcePath req.project req.mark id →
    req.previous.map FactRow.factId = some id

/-- A replacement retires the old signpost if it files the new. -/
def Whole {S T : Type*} [LinearOrder S] (floats : Floats S) (req : PutRequest) (a : Answer T) :
    Prop :=
  req.previous.isSome = true → a.around.files (req.capture floats) = true →
    a.around.retires = true

/-- What a signpost is for, and where it is. -/
def PutRequest.place (req : PutRequest) : Str × Str × Mark :=
  (req.sourcePath, req.project, req.mark)

lemma standing_of_shrinks {facts facts' : FactTable} {sourcePath project : Str} {mark : Mark}
    {id : FactId} (h : Shrinks facts facts') (hid : Standing facts' sourcePath project mark id) :
    Standing facts sourcePath project mark id := by
  obtain ⟨tags, htag, hsign⟩ := hid
  exact ⟨tags, h id _ htag, hsign⟩

/-- Other writers let no signpost come to stand. -/
lemma standing_of_leaves {facts facts' : FactTable} {sourcePath project : Str} {mark : Mark}
    {id : FactId} (h : Leaves facts facts') (hid : Standing facts' sourcePath project mark id) :
    Standing facts sourcePath project mark id := by
  obtain ⟨tags, htag, hsign⟩ := hid
  obtain ⟨r, hr, rfl, hactive, hsame⟩ := tagOf_eq_some_iff.mp htag
  obtain ⟨rfl, rfl⟩ := Prod.mk.inj hsame
  exact ⟨r.topics, h r hr hactive (by simp [hasTopic, hsign.1]), hsign⟩

lemma OneSign.shrink {facts facts' : FactTable} (h : OneSign facts) (hs : Shrinks facts facts') :
    OneSign facts' :=
  fun _ _ _ _ _ hid hid' => h _ _ _ _ _ (standing_of_shrinks hs hid) (standing_of_shrinks hs hid')

lemma Current.shrink {facts facts' : FactTable} {req : PutRequest} (h : Current facts req)
    (hs : Shrinks facts facts') : Current facts' req :=
  fun id hid => h id (standing_of_shrinks hs hid)

/-- What a lookup finds is current. -/
lemma current_of_findSign {facts : FactTable} {req : PutRequest} (hone : OneSign facts)
    (h : req.previous = findSign facts req.sourcePath req.project req.mark) :
    Current facts req := by
  intro id hid
  obtain ⟨tags, htag, hsign⟩ := hid
  obtain ⟨r, hr, rfl, hactive, hsame⟩ := tagOf_eq_some_iff.mp htag
  obtain ⟨hpath, rfl⟩ := Prod.mk.inj hsame
  have hfound : (findSign facts req.sourcePath req.project req.mark).isSome = true := by
    rw [findSign, List.find?_isSome]
    refine ⟨r, ?_, ?_⟩
    · simp only [FactIndex.findActiveBySourcePath, List.mem_filter]
      refine ⟨⟨hr, by simp [hpath, hactive]⟩, ?_⟩
      simp [isSignpostFor, hasTopic, hsign.1, hsign.2.1]
    · simp [hasTopic, hsign.2.2]
  obtain ⟨prev, hprev⟩ := Option.isSome_iff_exists.mp hfound
  rw [h, hprev, Option.map_some]
  have hmem := List.mem_of_find?_eq_some hprev
  have hmark : req.mark.topic ∈ prev.topics := by
    simpa [hasTopic] using List.find?_some hprev
  simp only [FactIndex.findActiveBySourcePath, List.mem_filter, isSignpostFor, hasTopic,
    Bool.and_eq_true, decide_eq_true_eq, List.any_eq_true, beq_iff_eq, exists_eq_right] at hmem
  obtain ⟨⟨hrow, hon, hstands⟩, hsignpost, hproject⟩ := hmem
  have hprevious : Standing facts req.sourcePath req.project req.mark prev.factId :=
    ⟨prev.topics, tagOf_eq_some_iff.mpr ⟨prev, hrow, rfl, hstands, by rw [hon]⟩,
      hsignpost, hproject, hmark⟩
  exact congrArg some (hone _ _ _ _ _ hprevious ⟨r.topics, htag, hsign⟩)

section Put

variable {S T : Type*} [LinearOrder S] [LinearOrder T] {floats : Floats S} {casing : Casing}
  {chrono : Chrono T} {facts : FactTable} {req : PutRequest} {a : Answer T}

lemma put_replacing {prev : FactRow} (hprev : req.previous = some prev)
    (htext : prev.text ≠ req.body) : (put floats casing chrono facts req a).2 =
      (wikiSupersede floats casing chrono facts (req.replacing floats prev.factId a)).2 := by
  unfold put
  rw [hprev]
  simp only [htext, if_false]
  rcases wikiSupersede floats casing chrono facts (req.replacing floats prev.factId a) with
    ⟨_ | _, _⟩ <;> rfl

lemma put_first (hprev : req.previous = none) : (put floats casing chrono facts req a).2 =
    (wikiCapture floats casing a.around facts (req.capture floats)).2 := by
  unfold put
  rw [hprev]
  rcases wikiCapture floats casing a.around facts (req.capture floats) with ⟨_ | outcome, facts'⟩
  · rfl
  · dsimp only
    split <;> rfl

/-- What a put does to the signposts. -/
lemma written_put (hfits : a.Fits facts (.put req)) (hwhole : Whole floats req a) :
    Written facts a.around (topics req.project req.mark)
        (put floats casing chrono facts req a).2 ∧
      ∀ prev, req.previous = some prev →
        Shrinks facts (put floats casing chrono facts req a).2 ∨
          tagOf (put floats casing chrono facts req a).2 prev.factId = none := by
  obtain ⟨hfresh, -, hstrip⟩ := hfits
  cases hprev : req.previous with
  | none =>
    rw [put_first hprev]
    refine ⟨?_, fun prev h => by cases h⟩
    exact (@written_wikiCapture S _ floats casing facts a.around (req.capture floats) rfl hfresh).1
  | some prev =>
    by_cases htext : prev.text = req.body
    · have hsame : (put floats casing chrono facts req a).2 = facts := by
        unfold put
        rw [hprev]
        simp only [htext, if_true]
      rw [hsame]
      exact ⟨fun id tag htag => .inl htag, fun _ _ => .inl (Shrinks.refl _)⟩
    · rw [put_replacing hprev htext]
      obtain ⟨hwritten, hnone, hgone⟩ := @written_wikiSupersede S T _ _ floats casing chrono facts
        (req.replacing floats prev.factId a) hfresh hstrip
      refine ⟨hwritten, ?_⟩
      rintro prev' h
      obtain rfl := Option.some.inj h
      cases hfiles : a.around.files (req.capture floats) with
      | false => exact .inl (hnone hfiles)
      | true => exact .inr (hgone hfiles (hwhole (by rw [hprev]; rfl) hfiles))

/-- A put that is current adds a signpost in its own place only, and leaves one there. -/
lemma oneSign_put (hfits : a.Fits facts (.put req)) (hcurrent : Current facts req)
    (hwhole : Whole floats req a) (hone : OneSign facts) :
    OneSign (put floats casing chrono facts req a).2 ∧
      ∀ sourcePath project mark id,
        Standing (put floats casing chrono facts req a).2 sourcePath project mark id →
          Standing facts sourcePath project mark id ∨
            id = a.around.freshId ∧ (sourcePath, project, mark) = req.place := by
  obtain ⟨hwritten, hprevious⟩ :=
    @written_put S T _ _ floats casing chrono facts req a hfits hwhole
  obtain ⟨-, hpath, -⟩ := hfits
  have hplace : ∀ sourcePath project mark id,
      Standing (put floats casing chrono facts req a).2 sourcePath project mark id →
        Standing facts sourcePath project mark id ∨
          id = a.around.freshId ∧ (sourcePath, project, mark) = req.place := by
    rintro sourcePath project mark id ⟨tags, htag, hsign⟩
    rcases hwritten id _ htag with hold | ⟨hid, hnew⟩
    · exact .inl ⟨tags, hold, hsign⟩
    · obtain ⟨rfl, rfl⟩ := Prod.mk.inj hnew
      obtain ⟨rfl, rfl⟩ := isSignOf_topics.mp hsign
      exact .inr ⟨hid, by rw [PutRequest.place, hpath]⟩
  -- a signpost that stood in the place of the new one is the one that was replaced
  have hbeside : ∀ id sourcePath project mark,
      (sourcePath, project, mark) = req.place → Standing facts sourcePath project mark id →
      Standing (put floats casing chrono facts req a).2 sourcePath project mark id →
      Shrinks facts (put floats casing chrono facts req a).2 := by
    intro id sourcePath project mark hkey hold hstands
    simp only [PutRequest.place, Prod.mk.injEq] at hkey
    obtain ⟨rfl, rfl, rfl⟩ := hkey
    obtain ⟨prev, hprev, rfl⟩ := Option.map_eq_some_iff.mp (hcurrent id hold)
    rcases hprevious prev hprev with hshrinks | hgone
    · exact hshrinks
    · obtain ⟨tags, htag, -⟩ := hstands
      rw [hgone] at htag
      cases htag
  refine ⟨?_, hplace⟩
  intro sourcePath project mark id id' hid hid'
  rcases hplace _ _ _ _ hid with hold | ⟨hnew, hkey⟩ <;>
    rcases hplace _ _ _ _ hid' with hold' | ⟨hnew', hkey'⟩
  · exact hone _ _ _ _ _ hold hold'
  · have hshrinks := hbeside _ _ _ _ hkey' hold hid
    exact hone _ _ _ _ _ hold (standing_of_shrinks hshrinks hid')
  · have hshrinks := hbeside _ _ _ _ hkey hold' hid'
    exact hone _ _ _ _ _ (standing_of_shrinks hshrinks hid) hold'
  · rw [hnew, hnew']

end Put

/-! ## What a call has yet to put -/

/-- The signposts a job has to put. -/
def Job.puts : Job → List PutRequest
  | .readDiary _ _ puts _ => puts
  | .put req => [req]
  | _ => []

/-- The projects a job is about. -/
def Job.projects : Job → List Str
  | .readSign _ wikiId _ _ => [wikiId]
  | .readDiary _ wikiId puts _ => wikiId :: puts.map PutRequest.project
  | .put req => [req.project]
  | .project row => [row.wikiId]
  | _ => []

/-- Whether a job puts a signpost. -/
def Job.isPut : Job → Bool
  | .put _ => true
  | _ => false

/-- What a call looked up still holds: each signpost it is to put replaces the one that stands in
its place.  They have places of their own, and nothing is put after a job of another kind. -/
structure Ready (facts : FactTable) (jobs : List Job) : Prop where
  current : ∀ job ∈ jobs, ∀ req ∈ job.puts, Current facts req
  apart : (jobs.flatMap Job.puts).Pairwise fun req req' => req.place ≠ req'.place
  headed : jobs.Pairwise fun job later => job.isPut = true ∨ later.puts = []
  described : ∀ target project puts activity, Job.readDiary target project puts activity ∈ jobs →
    ∀ req ∈ puts, req.mark = .description

lemma project_of_puts {job : Job} {req : PutRequest} (h : req ∈ job.puts) :
    req.project ∈ job.projects := by
  rcases job with _ | ⟨target, project, puts, activity⟩ | req' | _ | _ | _ | _
  · cases h
  · exact List.mem_cons_of_mem _ (List.mem_map_of_mem h)
  · rw [List.mem_singleton.mp h]
    exact List.mem_singleton_self _
  all_goals cases h

/-- Behind a job that is no put nothing is put. -/
lemma Ready.rest {facts : FactTable} {job : Job} {rest : List Job}
    (h : Ready facts (job :: rest)) (hjob : job.isPut = false) :
    ∀ later ∈ rest, later.puts = [] := by
  intro later hlater
  rcases (List.pairwise_cons.mp h.headed).1 later hlater with hput | hnone
  · rw [hjob] at hput
    cases hput
  · exact hnone

/-- Jobs in front of others that put nothing. -/
lemma ready_append {facts : FactTable} {jobs rest : List Job} (h : Ready facts jobs)
    (hrest : ∀ later ∈ rest, later.puts = []) : Ready facts (jobs ++ rest) := by
  have hnone : rest.flatMap Job.puts = [] := List.flatMap_eq_nil_iff.mpr hrest
  constructor
  · intro job hjob req hreq
    rcases List.mem_append.mp hjob with hjob | hjob
    · exact h.current job hjob req hreq
    · rw [hrest job hjob] at hreq
      cases hreq
  · rw [List.flatMap_append, hnone, List.append_nil]
    exact h.apart
  · refine List.pairwise_append.mpr ⟨h.headed, ?_, fun _ _ later hlater => .inr (hrest _ hlater)⟩
    exact List.pairwise_iff_forall_sublist.mpr fun {_ later} hsub =>
      .inr (hrest _ (hsub.subset (by simp)))
  · intro target project puts activity hmem req hreq
    rcases List.mem_append.mp hmem with hmem | hmem
    · exact h.described _ _ _ _ hmem req hreq
    · have : puts = [] := hrest _ hmem
      rw [this] at hreq
      cases hreq

/-- Jobs that put nothing are ready. -/
lemma ready_of_no_puts {facts : FactTable} {jobs : List Job}
    (h : ∀ job ∈ jobs, job.puts = []) : Ready facts jobs := by
  have hnone : Ready facts [] := by
    constructor <;> simp
  exact ready_append hnone h

/-- A job that is alone with at most one signpost to put. -/
lemma ready_single {facts : FactTable} {job : Job} (hlength : job.puts.length ≤ 1)
    (hcurrent : ∀ req ∈ job.puts, Current facts req)
    (hmark : ∀ req ∈ job.puts, req.mark = .description) : Ready facts [job] := by
  constructor
  · simpa using hcurrent
  · rw [List.flatMap_singleton]
    rcases hputs : job.puts with _ | ⟨req, _ | _⟩
    · exact List.Pairwise.nil
    · exact List.pairwise_singleton _ _
    · simp [hputs] at hlength
  · exact List.pairwise_singleton _ _
  · rintro target project puts activity hmem req hreq
    rw [← List.mem_singleton.mp hmem] at hmark
    exact hmark req hreq

lemma flatMap_puts (reqs : List PutRequest) : (reqs.map Job.put).flatMap Job.puts = reqs := by
  rw [List.flatMap_map]
  exact List.flatMap_singleton' reqs

/-- Signposts to put, in places of their own. -/
lemma ready_puts {facts : FactTable} {reqs : List PutRequest}
    (hcurrent : ∀ req ∈ reqs, Current facts req)
    (hapart : reqs.Pairwise fun req req' => req.place ≠ req'.place) :
    Ready facts (reqs.map Job.put) := by
  constructor
  · intro job hjob req hreq
    obtain ⟨req', hreq', rfl⟩ := List.mem_map.mp hjob
    rw [List.mem_singleton.mp hreq]
    exact hcurrent req' hreq'
  · rw [flatMap_puts]
    exact hapart
  · refine List.pairwise_map.mpr (List.Pairwise.imp (fun _ => .inl rfl) hapart)
  · intro target project puts activity hmem
    simp at hmem

/-- Jobs stay ready while no signpost comes to stand in their places. -/
lemma Ready.keep {facts facts' : FactTable} {jobs : List Job} (h : Ready facts jobs)
    (hkeep : ∀ job ∈ jobs, ∀ req ∈ job.puts, ∀ id,
      Standing facts' req.sourcePath req.project req.mark id →
        Standing facts req.sourcePath req.project req.mark id) : Ready facts' jobs where
  current job hjob req hreq id hid :=
    h.current job hjob req hreq id (hkeep job hjob req hreq id hid)
  apart := h.apart
  headed := h.headed
  described := h.described

/-- The jobs behind one. -/
lemma Ready.tail {facts : FactTable} {job : Job} {rest : List Job}
    (h : Ready facts (job :: rest)) : Ready facts rest where
  current later hlater := h.current later (List.mem_cons_of_mem _ hlater)
  apart := (List.pairwise_append.mp h.apart).2.1
  headed := (List.pairwise_cons.mp h.headed).2
  described target project puts activity hmem :=
    h.described target project puts activity (List.mem_cons_of_mem _ hmem)

section Jobs

variable {S T : Type*} [LinearOrder S] [LinearOrder T] {floats : Floats S} {casing : Casing}
  {chrono : Chrono T} {parseDay : Str → Option ℤ} {facts : FactTable} {a : Answer T} {job : Job}
  {rest jobs : List Job} {page : Option Str}

lemma runJob_put_snd {req : PutRequest} :
    (runJob floats casing chrono parseDay facts a (.put req)).2 =
      (put floats casing chrono facts req a).2 := by
  unfold runJob
  dsimp only
  rcases put floats casing chrono facts req a with ⟨_ | _, _⟩ <;> rfl

/-- Nothing comes of a put. -/
lemma runJob_put_fst {req : PutRequest}
    (h : (runJob floats casing chrono parseDay facts a (.put req)).1 = some (jobs, page)) :
    jobs = [] := by
  unfold runJob at h
  dsimp only at h
  rcases hput : put floats casing chrono facts req a with ⟨_ | _, _⟩ <;> rw [hput] at h
  · cases h
  · exact (Prod.mk.inj (Option.some.inj h)).1.symm

/-- A row of the registry is looked up before anything is written. -/
lemma runJob_project_snd {row : SmartWiki} :
    (runJob floats casing chrono parseDay facts a (.project row)).2 = facts := by
  unfold runJob
  dsimp only
  split
  · rfl
  · split
    · rfl
    · split_ifs <;> rfl

/-- A job that is no put adds no signpost. -/
lemma shrinks_runJob (hjob : job.isPut = false) (hfits : a.Fits facts job) :
    Shrinks facts (runJob floats casing chrono parseDay facts a job).2 := by
  rcases job with _ | _ | _ | _ | _ | row | _
  case put => cases hjob
  case forget =>
    unfold runJob
    split_ifs
    · exact Shrinks.refl _
    · exact shrinks_wikiForget hfits
  case render => exact shrinks_renderPage
  case project =>
    rw [runJob_project_snd]
    exact Shrinks.refl _
  all_goals
    unfold runJob
    split_ifs <;> exact Shrinks.refl _

lemma current_describe {target : Target} {project text : Str} (hone : OneSign facts) :
    Current facts (describe casing target project text
      (findSign facts target.sourcePath project .description)) :=
  current_of_findSign hone rfl

lemma current_note {target : Target} {project : Str} {line : ActivityLine}
    (hone : OneSign facts) : Current facts (note target project line
      (findSign facts target.diarySourcePath project (.day line.day))) :=
  current_of_findSign hone rfl

/-- What comes of a job that is no put is ready, and about its projects. -/
lemma ready_runJob (hone : OneSign facts) (hready : Ready facts (job :: rest))
    (hjob : job.isPut = false)
    (hdone : (runJob floats casing chrono parseDay facts a job).1 = some (jobs, page)) :
    Ready (runJob floats casing chrono parseDay facts a job).2 jobs ∧
      ∀ p ∈ jobs.flatMap Job.projects, p ∈ job.projects := by
  rcases job with ⟨target, project, description, activity⟩ | ⟨target, project, puts, activity⟩ |
    _ | _ | _ | row | _
  case put => cases hjob
  case readSign =>
    unfold runJob at hdone ⊢
    split_ifs at hdone ⊢ with hreads
    obtain ⟨rfl, -⟩ := Prod.mk.inj (Option.some.inj hdone)
    constructor
    · refine ready_single ?_ ?_ ?_
      · rcases description with _ | text <;> simp [Job.puts]
      all_goals
        intro req hreq
        obtain ⟨text, -, rfl⟩ := List.mem_map.mp hreq
      · exact current_describe hone
      · rfl
    · intro p hp
      rcases description with _ | text <;> simpa [Job.projects, describe] using hp
  case readDiary =>
    unfold runJob at hdone ⊢
    split_ifs at hdone ⊢ with hreads
    obtain ⟨rfl, -⟩ := Prod.mk.inj (Option.some.inj hdone)
    have hhead := hready.current _ List.mem_cons_self
    have hmark := hready.described _ _ _ _ List.mem_cons_self
    have hputs : puts.Pairwise fun req req' => req.place ≠ req'.place :=
      (List.pairwise_append.mp hready.apart).1
    constructor
    · refine ready_append (ready_puts ?_ ?_) (by simp [Job.puts])
      · intro req hreq
        rcases List.mem_append.mp hreq with hreq | hreq
        · exact hhead req hreq
        · obtain ⟨line, -, rfl⟩ := List.mem_map.mp hreq
          exact current_note hone
      · refine List.pairwise_append.mpr ⟨hputs, ?_, ?_⟩
        · rcases activity with _ | line <;> simp
        · intro req hreq req' hreq' hsame
          obtain ⟨line, -, rfl⟩ := List.mem_map.mp hreq'
          have hboth : req.mark = .day line.day := congrArg (fun place => place.2.2) hsame
          rw [hmark req hreq] at hboth
          cases hboth
    · intro p hp
      obtain ⟨job, hmem, hp⟩ := List.mem_flatMap.mp hp
      rcases List.mem_append.mp hmem with hmem | hmem
      · obtain ⟨req, hreq, rfl⟩ := List.mem_map.mp hmem
        rw [List.mem_singleton.mp hp]
        rcases List.mem_append.mp hreq with hreq | hreq
        · exact List.mem_cons_of_mem _ (List.mem_map_of_mem hreq)
        · obtain ⟨line, -, rfl⟩ := List.mem_map.mp hreq
          exact List.mem_cons_self
      · rw [List.mem_singleton.mp hmem] at hp
        cases hp
  case project =>
    rw [runJob_project_snd]
    unfold runJob at hdone
    dsimp only at hdone
    split at hdone
    · obtain ⟨rfl, -⟩ := Prod.mk.inj (Option.some.inj hdone)
      exact ⟨ready_of_no_puts (by simp), by simp⟩
    split at hdone
    · obtain ⟨rfl, -⟩ := Prod.mk.inj (Option.some.inj hdone)
      exact ⟨ready_of_no_puts (by simp), by simp⟩
    split_ifs at hdone with hreads
    obtain ⟨rfl, -⟩ := Prod.mk.inj (Option.some.inj hdone)
    rcases row.description with _ | text
    · constructor
      · refine ready_of_no_puts fun job hjob => ?_
        obtain ⟨prev, -, rfl⟩ := List.mem_map.mp hjob
        rfl
      · intro p hp
        obtain ⟨job, hjob, hp⟩ := List.mem_flatMap.mp hp
        obtain ⟨prev, -, rfl⟩ := List.mem_map.mp hjob
        cases hp
    · constructor
      · refine ready_single (by simp [Job.puts]) ?_ ?_
        all_goals
          intro req hreq
          rw [List.mem_singleton.mp hreq]
        · exact current_describe hone
        · rfl
      · intro p hp
        simpa [Job.projects, describe] using hp
  case roll =>
    unfold runJob at hdone ⊢
    split_ifs at hdone ⊢ with hreads
    obtain ⟨rfl, -⟩ := Prod.mk.inj (Option.some.inj hdone)
    constructor
    · refine ready_of_no_puts fun job hjob => ?_
      obtain ⟨id, -, rfl⟩ := List.mem_map.mp hjob
      rfl
    · intro p hp
      obtain ⟨job, hjob, hp⟩ := List.mem_flatMap.mp hp
      obtain ⟨id, -, rfl⟩ := List.mem_map.mp hjob
      exact hp
  case forget =>
    unfold runJob at hdone
    split_ifs at hdone
    obtain ⟨rfl, -⟩ := Prod.mk.inj (Option.some.inj hdone)
    exact ⟨ready_of_no_puts (by simp), by simp⟩
  case render =>
    obtain ⟨rfl, -⟩ := Prod.mk.inj (Option.some.inj hdone)
    exact ⟨ready_of_no_puts (by simp), by simp⟩

end Jobs

/-! ## Calls side by side -/

/-- The projects a call is about. -/
def Worker.projects (w : Worker) : List Str := w.jobs.flatMap Job.projects

/-- The projects of a call, of none once it is over. -/
def projectsOf (w : Option Worker) : List Str := w.elim [] Worker.projects

/-- The projects a call that begins is about. -/
def Event.projects {T : Type*} : Event T → List Str
  | .write _ req _ _ => [req.projectWikiId.val]
  | .projectDescriptions rows => rows.map SmartWiki.wikiId
  | _ => []

section Step

variable {S T : Type*} [LinearOrder S] [LinearOrder T] (floats : Floats S)

/-- Whether no call that begins is about a project that a call at work is about. -/
def beginsApart (s : System) (e : Event T) : Bool :=
  e.projects.all fun project => s.workers.all fun w => !(projectsOf w).contains project

/-- Whether a replacement that files the new signpost retires the old. -/
def isWhole (s : System) : Event T → Bool
  | .work i a =>
    match s.workers[i]? with
    | some (some ⟨.put req :: _, _⟩) =>
      !(req.previous.isSome && a.around.files (req.capture floats)) || a.around.retires
    | _ => true
  | _ => true

variable {floats} {casing : Casing} {chrono : Chrono T} {parseDay : Str → Option ℤ}
  {s s' : System} {e : Event T}

/-- The invariant of the calls. -/
structure Orderly (s : System) : Prop where
  oneSign : OneSign s.facts
  ready : ∀ (i : ℕ) (w : Worker), s.workers[i]? = some (some w) → Ready s.facts w.jobs
  apart : ∀ (i j : ℕ) (w w' : Worker), s.workers[i]? = some (some w) →
    s.workers[j]? = some (some w') → i ≠ j → w.projects.Disjoint w'.projects

/-- What a call does next is as ready as its jobs, and about no other projects. -/
lemma next_of_ready {facts : FactTable} {rest jobs : List Job} {pages : List Str}
    {page : Option Str} {w : Worker} (hready : Ready facts (jobs ++ rest))
    (h : Worker.next rest pages (jobs, page) = some w) :
    Ready facts w.jobs ∧ ∀ p ∈ w.projects, p ∈ (jobs ++ rest).flatMap Job.projects := by
  unfold Worker.next at h
  dsimp only at h
  split at h
  · cases h
  · obtain rfl := Option.some.inj h
    exact ⟨ready_of_no_puts (by simp [Job.puts]), by simp [Worker.projects, Job.projects]⟩
  · obtain rfl := Option.some.inj h
    exact ⟨hready, fun p hp => hp⟩

/-- What a job does to the signposts: one comes to stand only in the place of a put. -/
lemma standing_runJob {facts : FactTable} {a : Answer T} {job : Job} {rest : List Job}
    (hone : OneSign facts) (hready : Ready facts (job :: rest)) (hfits : a.Fits facts job)
    (hwhole : ∀ req, job = .put req → Whole floats req a) :
    OneSign (runJob floats casing chrono parseDay facts a job).2 ∧
      ∀ sourcePath project mark id,
        Standing (runJob floats casing chrono parseDay facts a job).2 sourcePath project mark id →
          Standing facts sourcePath project mark id ∨
            ∃ req, job = .put req ∧ (sourcePath, project, mark) = req.place := by
  by_cases hjob : job.isPut = true
  · obtain ⟨req, rfl⟩ : ∃ req, job = .put req := by
      rcases job with _ | _ | req | _ | _ | _ | _ <;> simp [Job.isPut] at hjob ⊢
    rw [runJob_put_snd]
    obtain ⟨hafter, hplaces⟩ := @oneSign_put S T _ _ floats casing chrono facts req a hfits
      (hready.current _ List.mem_cons_self req (List.mem_singleton_self _)) (hwhole req rfl) hone
    refine ⟨hafter, fun sourcePath project mark id hid => ?_⟩
    rcases hplaces sourcePath project mark id hid with hold | ⟨-, hplace⟩
    · exact .inl hold
    · exact .inr ⟨req, rfl, hplace⟩
  · have hshrinks := @shrinks_runJob S T _ _ floats casing chrono parseDay facts a job
      (by simpa using hjob) hfits
    exact ⟨hone.shrink hshrinks, fun _ _ _ _ hid => .inl (standing_of_shrinks hshrinks hid)⟩

/-- What comes of a job is ready, and about the projects of its call. -/
lemma ready_next {facts : FactTable} {a : Answer T} {job : Job} {rest : List Job}
    {pages : List Str} {w : Worker} (hone : OneSign facts) (hready : Ready facts (job :: rest))
    (hfits : a.Fits facts job) (hwhole : ∀ req, job = .put req → Whole floats req a)
    (hnext : (runJob floats casing chrono parseDay facts a job).1.bind (Worker.next rest pages) =
      some w) :
    Ready (runJob floats casing chrono parseDay facts a job).2 w.jobs ∧
      ∀ p ∈ w.projects, p ∈ (⟨job :: rest, pages⟩ : Worker).projects := by
  obtain ⟨⟨jobs, page⟩, hdone, hnext⟩ := Option.bind_eq_some_iff.mp hnext
  obtain ⟨-, hplaces⟩ := @standing_runJob S T _ _ floats casing chrono parseDay facts a job rest
    hone hready hfits hwhole
  obtain ⟨hjobs, hprojects⟩ : Ready (runJob floats casing chrono parseDay facts a job).2
      (jobs ++ rest) ∧ ∀ p ∈ jobs.flatMap Job.projects, p ∈ job.projects := by
    by_cases hjob : job.isPut = true
    · obtain ⟨req, rfl⟩ : ∃ req, job = .put req := by
        rcases job with _ | _ | req | _ | _ | _ | _ <;> simp [Job.isPut] at hjob ⊢
      obtain rfl : jobs = [] := runJob_put_fst hdone
      refine ⟨hready.tail.keep fun later hlater req' hreq' id hid => ?_, by simp⟩
      rcases hplaces _ _ _ _ hid with hold | ⟨req'', hsame, hplace⟩
      · exact hold
      · obtain rfl := Job.put.inj hsame
        have hother := (List.pairwise_append.mp hready.apart).2.2 req (List.mem_singleton_self _)
          req' (List.mem_flatMap.mpr ⟨later, hlater, hreq'⟩)
        exact absurd hplace.symm hother
    · have hno : job.isPut = false := by simpa using hjob
      obtain ⟨hjobs, hprojects⟩ := @ready_runJob S T _ _ floats casing chrono parseDay facts a job
        rest jobs page hone hready hno hdone
      exact ⟨ready_append hjobs (hready.rest hno), hprojects⟩
  obtain ⟨hw, hwithin⟩ := next_of_ready hjobs hnext
  refine ⟨hw, fun p hp => ?_⟩
  have hboth := hwithin p hp
  rw [List.flatMap_append] at hboth
  rcases List.mem_append.mp hboth with hp | hp
  · exact List.mem_append_left _ (hprojects p hp)
  · exact List.mem_append_right _ hp

/-- One job of one call. -/
lemma orderly_work {i : ℕ} {a : Answer T} {job : Job} {rest : List Job} {pages : List Str}
    (horderly : Orderly s) (hw : s.workers[i]? = some (some ⟨job :: rest, pages⟩))
    (hfits : a.Fits s.facts job) (hwhole : isWhole floats s (.work i a) = true) :
    Orderly {
      facts := (runJob floats casing chrono parseDay s.facts a job).2
      workers := s.workers.set i ((runJob floats casing chrono parseDay s.facts a job).1.bind
        (Worker.next rest pages)) } := by
  have hready := horderly.ready i _ hw
  have hputs : ∀ req, job = .put req → Whole floats req a := by
    rintro req rfl hprevious hfiles
    simpa [isWhole, hw, hprevious, hfiles] using hwhole
  obtain ⟨hone, hplaces⟩ := @standing_runJob S T _ _ floats casing chrono parseDay s.facts a job
    rest horderly.oneSign hready hfits hputs
  -- the calls after the job are the others, and what is left of this one
  have hcases : ∀ j w, (s.workers.set i ((runJob floats casing chrono parseDay s.facts a job).1.bind
      (Worker.next rest pages)))[j]? = some (some w) →
      j ≠ i ∧ s.workers[j]? = some (some w) ∨
        j = i ∧ Ready (runJob floats casing chrono parseDay s.facts a job).2 w.jobs ∧
          ∀ p ∈ w.projects, p ∈ (⟨job :: rest, pages⟩ : Worker).projects := by
    intro j w hj
    rw [List.getElem?_set] at hj
    split_ifs at hj with hij hlength
    · exact .inr ⟨hij.symm, ready_next horderly.oneSign hready hfits hputs (Option.some.inj hj)⟩
    · exact .inl ⟨Ne.symm hij, hj⟩
  constructor
  · exact hone
  · intro j w hj
    rcases hcases j w hj with ⟨hji, hold⟩ | ⟨-, hw, -⟩
    · refine (horderly.ready j w hold).keep fun job' hjob' req' hreq' id hid => ?_
      rcases hplaces _ _ _ _ hid with hstood | ⟨req, rfl, hplace⟩
      · exact hstood
      · have hproject : req'.project = req.project := congrArg (fun place => place.2.1) hplace
        have hin : req'.project ∈ w.projects :=
          List.mem_flatMap.mpr ⟨job', hjob', project_of_puts hreq'⟩
        refine absurd ?_ (horderly.apart j i w _ hold hw hji hin)
        rw [hproject]
        exact List.mem_append_left _ (List.mem_singleton_self _)
    · exact hw
  · intro j k w w' hj hk hjk
    rcases hcases j w hj with ⟨hji, hold⟩ | ⟨rfl, -, hin⟩ <;>
      rcases hcases k w' hk with ⟨hki, hold'⟩ | ⟨rfl, -, hin'⟩
    · exact horderly.apart j k w w' hold hold' hjk
    · exact fun p hp hp' => horderly.apart j k w _ hold hw hjk hp (hin' p hp')
    · exact fun p hp hp' => horderly.apart j k _ w' hw hold' hjk (hin p hp) hp'
    · exact absurd rfl hjk

/-- A call that begins, about projects no other is about. -/
lemma orderly_begin {new : Option Worker} {projects : List Str} (horderly : Orderly s)
    (hready : ∀ w, new = some w → Ready s.facts w.jobs)
    (hprojects : ∀ w, new = some w → ∀ p ∈ w.projects, p ∈ projects)
    (hapart : (projects.all fun project => s.workers.all fun w =>
      !(projectsOf w).contains project) = true) :
    Orderly { s with workers := s.workers ++ [new] } := by
  have hother : ∀ (j : ℕ) (w : Worker), s.workers[j]? = some (some w) →
      ∀ p ∈ w.projects, p ∉ projects := by
    intro j w hj p hp hin
    have := List.all_eq_true.mp (List.all_eq_true.mp hapart p hin) _
      (List.mem_of_getElem? hj)
    simp [projectsOf, hp] at this
  have hcases : ∀ (j : ℕ) (w : Worker), (s.workers ++ [new])[j]? = some (some w) →
      s.workers[j]? = some (some w) ∨ j = s.workers.length ∧ new = some w := by
    intro j w hj
    rw [List.getElem?_append] at hj
    split_ifs at hj with hlength
    · exact .inl hj
    · obtain ⟨hzero, hnew⟩ := List.getElem?_eq_some_iff.mp hj
      simp only [List.length_singleton, Nat.lt_one_iff] at hzero
      simp only [List.getElem_singleton] at hnew
      exact .inr ⟨by omega, hnew⟩
  constructor
  · exact horderly.oneSign
  · intro j w hj
    rcases hcases j w hj with hj | ⟨-, hnew⟩
    · exact horderly.ready j w hj
    · exact hready w hnew
  · intro j k w w' hj hk hjk
    rcases hcases j w hj with hj | ⟨hj, hnew⟩ <;> rcases hcases k w' hk with hk | ⟨hk, hnew'⟩
    · exact horderly.apart j k w w' hj hk hjk
    · exact fun p hp hp' => hother j w hj p hp (hprojects w' hnew' p hp')
    · exact fun p hp hp' => hother k w' hk p hp' (hprojects w hnew p hp)
    · exact absurd (hj.trans hk.symm) hjk

lemma orderly_step (hstep : step floats casing chrono parseDay s e = some s')
    (horderly : Orderly s) (hapart : beginsApart s e = true) (hwhole : isWhole floats s e = true) :
    Orderly s' := by
  rcases e with ⟨caller, req, tree, disk⟩ | ⟨rows⟩ | ⟨i, a⟩ | ⟨facts⟩ <;> unfold step at hstep
  · dsimp only at hstep
    split at hstep
    · obtain rfl := Option.some.inj hstep
      exact horderly
    · obtain rfl := Option.some.inj hstep
      refine orderly_begin horderly ?_ ?_ hapart
      · rintro w hw
        obtain rfl := Option.some.inj hw
        exact ready_of_no_puts (by simp [Job.puts])
      · rintro w hw p hp
        obtain rfl := Option.some.inj hw
        simpa [Worker.projects, Job.projects, Event.projects] using hp
  · obtain rfl := Option.some.inj hstep
    have hjobs : Ready s.facts (rows.map Job.project ++ []) :=
      ready_of_no_puts (by simp [Job.puts])
    refine orderly_begin horderly (fun w hw => (next_of_ready hjobs hw).1) ?_ hapart
    intro w hw p hp
    simpa [Job.projects, Event.projects, eq_comm] using (next_of_ready hjobs hw).2 p hp
  · dsimp only at hstep
    split at hstep
    · next job rest pages hw =>
      split_ifs at hstep with hfits
      obtain rfl := Option.some.inj hstep
      exact orderly_work horderly hw hfits hwhole
    · cases hstep
  · dsimp only at hstep
    split_ifs at hstep with hleaves
    obtain rfl := Option.some.inj hstep
    refine ⟨fun sourcePath project mark id id' hid hid' => ?_, fun i w hw => ?_, horderly.apart⟩
    · exact horderly.oneSign _ _ _ _ _ (standing_of_leaves hleaves hid)
        (standing_of_leaves hleaves hid')
    · exact (horderly.ready i w hw).keep fun _ _ _ _ _ hid => standing_of_leaves hleaves hid

end Step

/-! ## A project that is described, and described anew -/

open FactIndex (sampleChrono)

/-- What is answered when a signpost is written under an id. -/
def answer (freshId : FactId) : Answer ℤ where
  around := {
    freshId
    roster := household
    sourcePath := "wikis/alice/@projects.md".toList
    now := [] }
  whenUnstated := 0
  now := []
  tree := Sample.env.tree
  disk := (Sample.world []).disk

/-- Alice says what her project is. -/
def aGarden : SignpostRequest where
  projectWikiId := Sample.project.wikiId
  description := some "A garden.".toList

/-- Her call, and then a sweep over the registry, where the project is described anew. -/
def twice : List (Event ℤ) :=
  [.write "alice".toList aGarden Sample.env.tree (Sample.world []).disk,
    .work 0 (answer firstHours), .work 0 (answer firstHours), .work 0 (answer firstHours),
    .work 0 (answer firstHours),
    .projectDescriptions [⟨Sample.project.wikiId.val, some "A kitchen garden.".toList⟩],
    .work 1 (answer laterHours), .work 1 (answer laterHours)]

/-- Whether the second description stands, and the first does not. -/
def describedAnew (s : System) : Bool :=
  s.facts.rows.map (fun r => (r.factId, r.isActive)) == [(firstHours, false), (laterHours, true)]

end Mwe.Signposts
