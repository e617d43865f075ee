import MweCore.Lib.Lines
import MweCore.Lib.Rfc3339
import MweCore.Lib.Table
import MweCore.Types

/-!
# The briefing inbox

A note left for a smart wiki is a row of `wiki_briefing_items` and a section of `_briefing.md`.
The row is inserted by one statement; the file is read, the section appended to what was read, and
the whole written back in the place of the file.  `act` is one step of one call of `notify_append`,
up to its next look at the database or at the file, and calls take their steps in any order.
-/

namespace Mwe

open Str Sql

namespace Briefing

/-! ## Requests -/

inductive BriefingSourceKind where
  | user | rem | consumer | dashboard
  deriving DecidableEq, Repr

def BriefingSourceKind.asStr : BriefingSourceKind → Str
  | .user => "user".toList
  | .rem => "rem".toList
  | .consumer => "consumer".toList
  | .dashboard => "dashboard".toList

/-- The three layers a note can be put in. -/
inductive BriefingKind where
  | observation | reasoning | external
  deriving DecidableEq, Repr

def BriefingKind.asStr : BriefingKind → Str
  | .observation => "observation".toList
  | .reasoning => "reasoning".toList
  | .external => "external".toList

def BriefingKind.parseWire (s : Str) : Option BriefingKind :=
  if s = "observation".toList then some .observation
  else if s = "reasoning".toList then some .reasoning
  else if s = "external".toList then some .external
  else none

inductive BriefingError where
  | invalidInput (message : Str)
  | rateLimited (cap : ℕ)
  deriving DecidableEq, Repr

/-- The inputs of one call, the wiki apart. -/
structure NotifyRequest where
  topic : Str
  body : Str
  sourceKind : BriefingSourceKind
  sourceRef : Str
  kind : Option Str
  targetCite : Option Str
  ts : Option Str
  deriving DecidableEq, Repr

def topicMaxBytes : ℕ := 200
def bodyMaxBytes : ℕ := 4096
def citeMaxBytes : ℕ := 512
def citeSchemePrefix : Str := "wiki://".toList
def notifyRatePerHour : ℕ := 50

/-- A character in quotes, escaped. -/
def debugChar (c : Char) : Str :=
  let escaped := if c = '\'' then ['\\', '\''] else if c = '"' then ['"']
    else (debug [c]).tail.dropLast
  ['\''] ++ escaped ++ ['\'']

/-- Why a wiki id did not parse. -/
def wikiIdParseMessage : SlugParseError → Str
  | .empty => "empty wiki id".toList
  | .edgeDash s => "wiki id ".toList ++ debug s ++ ": leading or trailing dash".toList
  | .doubleDash s => "wiki id ".toList ++ debug s ++ ": consecutive dashes".toList
  | .invalidChar s c =>
    "wiki id ".toList ++ debug s ++ ": invalid character ".toList ++ debugChar c

/-- The fragment after `#`: `[a-z0-9-]`, no dash at either end. -/
def validateAnchor (anchor : Str) : Except BriefingError Unit :=
  let target := "target_cite anchor ".toList
  if anchor.isEmpty then .error (.invalidInput (target ++ "must not be blank".toList))
  else if anchor.head? = some '-' ∨ anchor.getLast? = some '-' then
    .error (.invalidInput (target ++ debug anchor ++ " cannot start or end with `-`".toList))
  else
    match anchor.find? fun c => !(isAsciiLowercase c || isAsciiDigit c || c == '-') with
    | some c => .error (.invalidInput (target ++ debug anchor ++
        " contains invalid character ".toList ++ debugChar c ++ " (expected [a-z0-9-])".toList))
    | none => .ok ()

/-- A citation handle, taken apart. -/
structure ParsedCite where
  wikiId : WikiId
  path : Str
  anchor : Option Str

def parseCite (s : Str) : Except BriefingError ParsedCite :=
  if citeMaxBytes < len s then
    .error (.invalidInput ("target_cite exceeds ".toList ++ Nat.toDigits 10 citeMaxBytes ++
      " bytes".toList))
  else
    match stripPrefix citeSchemePrefix s with
    | none => .error (.invalidInput ("target_cite ".toList ++ debug s ++
        " must start with ".toList ++ debug citeSchemePrefix))
    | some rest =>
      match Search.splitOnce ['/'] rest with
      | none => .error (.invalidInput ("target_cite ".toList ++ debug s ++
          " must include a `/` between wiki_id and path".toList))
      | some (wikiSegment, pathWithAnchor) =>
        if wikiSegment.isEmpty then
          .error (.invalidInput "target_cite wiki_id must not be blank".toList)
        else
          match WikiId.parse wikiSegment with
          | .error e => .error (.invalidInput ("target_cite wiki_id ".toList ++
              debug wikiSegment ++ " invalid: ".toList ++ wikiIdParseMessage e))
          | .ok wikiId =>
            let (path, anchor) := (Search.splitOnce ['#'] pathWithAnchor).elim
              (pathWithAnchor, none) fun p => (p.1, some p.2)
            if path.isEmpty then
              .error (.invalidInput "target_cite path must not be blank".toList)
            else
              match anchor with
              | none | some [] => .ok { wikiId, path, anchor := none }
              | some a => (validateAnchor a).map fun _ => { wikiId, path, anchor := some a }

/-- A request that was accepted: trimmed, the time stamp still open. -/
structure Note where
  topic : Str
  body : Str
  sourceKind : BriefingSourceKind
  sourceRef : Str
  kind : Option BriefingKind
  targetCite : Option Str
  ts : Option Str
  deriving DecidableEq, Repr

/-- The layer of a request, which may be left open. -/
def acceptKind : Option Str → Except BriefingError (Option BriefingKind)
  | none => .ok none
  | some k =>
    match BriefingKind.parseWire k with
    | some kind => .ok (some kind)
    | none => .error (.invalidInput ("unknown kind ".toList ++ debug k ++
        " (allowed: observation | reasoning | external)".toList))

/-- The cite of a request, trimmed; a blank one counts as none. -/
def acceptCite : Option Str → Except BriefingError (Option Str)
  | none => .ok none
  | some raw =>
    if (trim raw).isEmpty then .ok none else (parseCite (trim raw)).map fun _ => some (trim raw)

/-- The checks `notify_append` makes before it looks at the database. -/
def accept (req : NotifyRequest) : Except BriefingError Note :=
  let topic := trim req.topic
  let body := trim req.body
  if topic.isEmpty then .error (.invalidInput "topic must not be blank".toList)
  else if topicMaxBytes < len topic then
    .error (.invalidInput ("topic exceeds ".toList ++ Nat.toDigits 10 topicMaxBytes ++
      " bytes".toList))
  else if body.isEmpty then .error (.invalidInput "body must not be blank".toList)
  else if bodyMaxBytes < len body then
    .error (.invalidInput ("body exceeds ".toList ++ Nat.toDigits 10 bodyMaxBytes ++
      " bytes".toList))
  else if (trim req.sourceRef).isEmpty then
    .error (.invalidInput "source.ref must not be blank".toList)
  else do
    let kind ← acceptKind req.kind
    let targetCite ← acceptCite req.targetCite
    pure { topic, body, sourceKind := req.sourceKind, sourceRef := trim req.sourceRef
           kind, targetCite, ts := (req.ts.map trim).filter fun s => !s.isEmpty }

/-! ## The table -/

/-- A row of `wiki_briefing_items`. -/
structure BriefingRow where
  id : ℕ
  wikiId : WikiId
  sourceKind : BriefingSourceKind
  sourceRef : Str
  topic : Str
  body : Str
  kind : Option BriefingKind
  ts : Str
  targetCite : Option Str
  processedAt : Option Str
  deriving DecidableEq

/-- The table with its sequence: no id is above the last one handed out. -/
structure Items where
  rows : Table BriefingRow.id
  seq : ℕ
  le_seq : ∀ r ∈ rows, r.id ≤ seq

/-- `INSERT … RETURNING id`, the id by `AUTOINCREMENT`. -/
def Items.insert (items : Items) (row : ℕ → BriefingRow) (h : ∀ id, (row id).id = id) : Items where
  rows :=
    { rows := items.rows.rows ++ [row (items.seq + 1)]
      nodup := by
        rw [List.map_append, List.map_singleton, List.nodup_append_comm]
        refine List.nodup_cons.mpr ⟨?_, items.rows.nodup⟩
        intro hmem
        obtain ⟨x, hx, hid⟩ := List.mem_map.mp hmem
        have hle := items.le_seq x hx
        rw [hid, h] at hle
        omega }
  seq := items.seq + 1
  le_seq := by
    intro r hr
    rcases List.mem_append.mp hr with hr | hr
    · exact (items.le_seq r hr).trans (Nat.le_succ _)
    · rw [List.mem_singleton.mp hr, h]

/-- `bi_<id>`. -/
def briefingItemId (id : ℕ) : Str := "bi_".toList ++ Nat.toDigits 10 id

/-! ## The file -/

/-- The text before the front matter, the front matter, and the text from the closing fence on. -/
def locateFrontmatter (s : Str) : Option (Str × Str × Str) := do
  let rest ← stripPrefix "---\n".toList s
  let (fm, after) ← Search.splitOnce "\n---".toList rest
  pure ("---\n".toList, fm ++ ['\n'], "---".toList ++ after)

/-- The lines of the front matter, the first one for the last update rewritten. -/
def touchLines (ts : Str) : Bool → List Str → Str
  | _, [] => []
  | wroteLine, line :: rest =>
    if "last_updated:".toList <+: line ∧ wroteLine = false then
      "last_updated: ".toList ++ ts ++ '\n' :: touchLines ts true rest
    else line ++ '\n' :: touchLines ts wroteLine rest

/-- Update the `last_updated:` field in the front matter, if any. -/
def touchLastUpdated (existing ts : Str) : Str :=
  match locateFrontmatter existing with
  | none => existing
  | some (before, fm, after) => before ++ touchLines ts false (lines fm) ++ after

/-- The document written when there is none yet. -/
def initialBriefingDoc (wikiId : WikiId) (now : Str) : Str :=
  "---\ntype: session_briefing".toList ++ '\n' :: ("wiki_id: ".toList ++ wikiId.val) ++
    '\n' :: ("last_updated: ".toList ++ now) ++ '\n' :: "---\n".toList ++
    '\n' :: ("# Session briefing for `".toList ++ wikiId.val ++ ['`']) ++
    '\n' :: ("\nREM (Briefing dispatcher), other consumers, and the dashboard\n" ++
      "append items below. The smart\nconsumer reads them at `smart_bootstrap` and rotates " ++
      "this file\nto `_briefing.archive.md` after triage.\n").toList

/-- The section of a row. -/
def renderSection (r : BriefingRow) : Str :=
  let cite := r.targetCite.elim [] fun cite => '\n' :: "*→ <".toList ++ cite ++ ['>', '*', '\n']
  let tail := if r.body.getLast? = some '\n' then [] else ['\n']
  '\n' :: "## ".toList ++ briefingItemId r.id ++ " — ".toList ++ r.topic ++ [' ', '['] ++
    (r.kind.getD .observation).asStr ++ [']', '\n'] ++ '\n' :: "*from ".toList ++
    r.sourceKind.asStr ++ " (ref: `".toList ++ r.sourceRef ++ '`' :: ", at ".toList ++ r.ts ++
    [')', '*', '\n'] ++ cite ++ '\n' :: r.body ++ tail ++ '\n' :: "---\n".toList

/-- The file with the section of a row appended. -/
def appended (existing : Str) (r : BriefingRow) : Str :=
  touchLastUpdated existing r.ts ++ renderSection r

/-! ## Calls -/

/-- Where a call of `notify_append` stands. -/
inductive Actor where
  /-- About to count the notes of the last hour. -/
  | counting (note : Note)
  /-- About to insert the row. -/
  | inserting (note : Note)
  /-- About to read the file. -/
  | reading (row : BriefingRow)
  /-- About to write the file. -/
  | writing (row : BriefingRow) (existing : Str)
  deriving DecidableEq

structure State where
  items : Items
  file : Option Str
  actors : ℕ → Option Actor

/-- What a step reads off the clock: the instant, and the text of the one an hour ago. -/
structure Clock where
  now : Rfc3339.Civil
  hourAgo : Str

inductive Event where
  | begin (n : ℕ) (req : NotifyRequest)
  | go (n : ℕ) (clock : Clock)

/-- The row of a note under an id. -/
def Note.row (note : Note) (wikiId : WikiId) (now : Str) (id : ℕ) : BriefingRow where
  id := id
  wikiId := wikiId
  sourceKind := note.sourceKind
  sourceRef := note.sourceRef
  topic := note.topic
  body := note.body
  kind := note.kind
  ts := note.ts.getD now
  targetCite := note.targetCite
  processedAt := none

lemma Note.id_row (note : Note) (wikiId : WikiId) (now : Str) (id : ℕ) :
    (note.row wikiId now id).id = id := rfl

variable (wikiId : WikiId)

/-- One step of a call that stands at `a`, and where the call stands then. -/
def act (clock : Clock) (s : State) : Actor → State × Option Actor
  | .counting note =>
    let recent := s.items.rows.rows.countP fun r => r.wikiId = wikiId ∧ clock.hourAgo < r.ts
    if notifyRatePerHour ≤ recent then (s, none) else (s, some (.inserting note))
  | .inserting note =>
    let row := note.row wikiId clock.now.render
    ({ s with items := s.items.insert row (note.id_row wikiId clock.now.render) },
      some (.reading (row (s.items.seq + 1))))
  | .reading row =>
    (s, some (.writing row (s.file.getD (initialBriefingDoc wikiId clock.now.render))))
  | .writing row existing => ({ s with file := some (appended existing row) }, none)

/-- A call begins with its checks; a call under way takes its next step. -/
def step (s : State) : Event → Option State
  | .begin n req =>
    match s.actors n with
    | some _ => none
    | none =>
      match accept req with
      | .error _ => some s
      | .ok note => some { s with actors := Function.update s.actors n (some (.counting note)) }
  | .go n clock =>
    (s.actors n).map fun a =>
      { (act wikiId clock s a).1 with
        actors := Function.update s.actors n (act wikiId clock s a).2 }

end Briefing

end Mwe
