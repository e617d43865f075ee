import MweCore.Lib.Search
import MweCore.Lib.Table
import MweCore.Types

/-!
# Media

The bytes of an attachment lie in a file named by their hash, and a row of the catalogue says whose
they are.  Uploads and removals of any number of people take their steps in any order: `act` is one
step of one call, up to its next look at a file or at the database.

Two uploads of the same bytes share a temporary file, so a file is an inode under a name: what is
written through one name is read under another.
-/

namespace Mwe

open Str Sql

namespace Media

/-! ## Names and types -/

/-- The kinds of media. -/
def kinds : List Str := ["photo".toList, "video".toList, "audio".toList, "doc".toList]

/-- Whether a kind is one of them. -/
def isCanonical (kind : Str) : Bool := kinds.contains kind

/-- The registered type for a declared one. -/
def canonicalMime (declared : Str) : Str :=
  let essence := toAsciiLowercase (trim ((declared.splitOn ';').headD []))
  if essence = "image/jpg".toList ∨ essence = "image/pjpeg".toList ∨
      essence = "image/x-jpeg".toList then "image/jpeg".toList
  else if essence = "image/x-png".toList then "image/png".toList
  else if essence = "image/x-webp".toList then "image/webp".toList
  else essence

/-- The extension that a file name or, failing that, a type asks for. -/
def deriveExt (originalFilename : Option Str) (mime : Str) : Str :=
  let ofName := originalFilename.bind fun name =>
    if name.elem '.' then
      let ext := toAsciiLowercase (name.reverse.takeWhile fun c => c ≠ '.').reverse
      if !ext.isEmpty && ext.length ≤ 8 && ext.all fun c => isAsciiLowercase c || isAsciiDigit c
      then some ext else none
    else none
  let known : List (Str × Str) :=
    [("image/jpeg".toList, "jpg".toList), ("image/png".toList, "png".toList),
      ("image/webp".toList, "webp".toList), ("image/gif".toList, "gif".toList),
      ("image/heic".toList, "heic".toList), ("video/mp4".toList, "mp4".toList),
      ("video/webm".toList, "webm".toList), ("audio/mpeg".toList, "mp3".toList),
      ("audio/ogg".toList, "ogg".toList), ("audio/mp4".toList, "m4a".toList),
      ("audio/m4a".toList, "m4a".toList), ("audio/wav".toList, "wav".toList),
      ("audio/x-wav".toList, "wav".toList), ("application/pdf".toList, "pdf".toList)]
  (ofName.or (known.lookup mime)).getD "bin".toList

/-- `str::parse::<u64>`. -/
def parseU64 (s : Str) : Option ℕ :=
  let digits := if s.head? = some '+' then s.tail else s
  if !digits.isEmpty && digits.all isAsciiDigit then
    let n := digits.foldl (fun n c => 10 * n + (c.toNat - 48)) 0
    if n < 2 ^ 64 then some n else none
  else none

/-- A number with at least three digits. -/
def threeDigits (n : ℕ) : Str :=
  let digits := Nat.toDigits 10 n
  List.replicate (3 - digits.length) '0' ++ digits

/-! ## The catalogue -/

/-- The bytes of a file. -/
abbrev Bytes := List UInt8

/-- A row of `media_catalog`. -/
structure MediaRow where
  catalogId : CatalogId
  sha256 : Str
  kind : Str
  mime : Str
  sizeBytes : ℕ
  subjectId : Principal
  allowIds : List Principal
  senderId : Option Principal
  uploadedByConsumer : Option Str
  caption : Option Str
  description : Option Str
  originalFilename : Option Str
  createdAt : Str
  updatedAt : Str
  deriving DecidableEq

/-- The table `media_catalog`. -/
abbrev Catalog := Table MediaRow.catalogId

/-- The row of some bytes and a subject. -/
def findByShaAndSubject (catalog : Catalog) (sha256 : Str) (subject : Principal) :
    Option MediaRow :=
  catalog.rows.find? fun r => decide (r.sha256 = sha256) && decide (r.subjectId = subject)

/-- Insert a row; `none` when its id is taken, or its subject has a row of the same bytes. -/
def insertRow (catalog : Catalog) (row : MediaRow) : Option Catalog :=
  if (findByShaAndSubject catalog row.sha256 row.subjectId).isSome then none
  else catalog.insert row

/-- The next id of a day and a kind. -/
def mintCatalogId (catalog : Catalog) (date kind ext : Str) : Except Str CatalogId :=
  let lead := "c-".toList ++ date ++ ['-'] ++ kind ++ ['-']
  let numbers := catalog.rows.filterMap fun r =>
    (stripPrefix lead r.catalogId.val).bind fun tail =>
      (Search.splitOnce ['.'] tail).bind fun parts => parseU64 parts.1
  let last := numbers.foldl max 0
  CatalogId.parse (lead ++ threeDigits (last + 1) ++ ['.'] ++ ext)

/-- A row as `backfillAnnotations` leaves it. -/
def MediaRow.annotated (caption description : Option Str) (now : Str) (r : MediaRow) : MediaRow :=
  { r with
    caption := r.caption.or caption
    description := r.description.or description
    updatedAt := now }

@[simp] lemma MediaRow.catalogId_annotated (caption description : Option Str) (now : Str)
    (r : MediaRow) : (r.annotated caption description now).catalogId = r.catalogId := rfl

/-- Fill the annotations that a row lacks. -/
def backfillAnnotations (catalog : Catalog) (row : MediaRow) (caption description : Option Str)
    (now : Str) : Catalog :=
  let fills : Option Str → Option Str → Option Str := fun old new =>
    if old.isNone then new.filter fun text => !(trim text).isEmpty else none
  let newCaption := fills row.caption caption
  let newDescription := fills row.description description
  if newCaption.isNone && newDescription.isNone then catalog
  else catalog.update (fun r => r.catalogId == row.catalogId)
    (MediaRow.annotated newCaption newDescription now)
    (MediaRow.catalogId_annotated newCaption newDescription now)

/-! ## Calls -/

/-- What is uploaded, by whom, and when. -/
structure NewMedia where
  bytes : Bytes
  kind : Str
  mime : Str
  subject : Principal
  uploadedByConsumer : Option Str := none
  caption : Option Str := none
  description : Option Str := none
  originalFilename : Option Str := none
  date : Str
  now : Str
  deriving DecidableEq

/-- Why an upload fails. -/
inductive MediaError where
  | invalidKind (kind : Str)
  | emptyPayload
  | io
  | decode (message : Str)
  deriving DecidableEq

/-- A file of the store: the bytes of a hash, or what an upload of them is writing. -/
inductive MediaFile where
  | blob (sha256 : Str)
  | part (sha256 : Str)
  deriving DecidableEq

/-- The hash in the name of a file. -/
def MediaFile.sha256 : MediaFile → Str
  | .blob sha256 => sha256
  | .part sha256 => sha256

/-- Where a call stands: what it does next, and what it has read. -/
inductive Actor where
  | probing (media : NewMedia)
  | annotating (media : NewMedia) (row : MediaRow)
  | rereading (media : NewMedia) (catalogId : CatalogId) (deduplicated : Bool)
  | looking (media : NewMedia)
  | opening (media : NewMedia)
  | writing (media : NewMedia) (inode : ℕ)
  | placing (media : NewMedia)
  | minting (media : NewMedia) (attempt : ℕ)
  | inserting (media : NewMedia) (attempt : ℕ) (candidate : CatalogId)
  | reprobing (media : NewMedia) (attempt : ℕ)
  | finding (catalogId : CatalogId)
  | deleting (catalogId : CatalogId) (sha256 : Str)
  | counting (sha256 : Str)
  | unlinking (sha256 : Str)

/-- What came to pass: an upload that returned a row, a row that was deleted, an upload that
failed. -/
inductive Entry where
  | stored (sha256 : Str) (subject : Principal) (catalogId : CatalogId) (deduplicated : Bool)
  | removed (sha256 : Str) (subject : Principal)
  | failed (error : MediaError)
  deriving DecidableEq

/-- The files, the catalogue, and the calls under way. -/
structure State where
  names : MediaFile → Option ℕ
  inodes : ℕ → Bytes
  nextInode : ℕ
  catalog : Catalog
  actors : ℕ → Option Actor
  log : List Entry

namespace State

/-- Nothing was ever uploaded. -/
def empty : State where
  names _ := none
  inodes _ := []
  nextInode := 0
  catalog := Table.empty _
  actors _ := none
  log := []

/-- Open a file for writing and cut it to nothing, making it when it is not there. -/
def create (s : State) (file : MediaFile) : State × ℕ :=
  match s.names file with
  | some inode => ({ s with inodes := Function.update s.inodes inode [] }, inode)
  | none =>
    ({ s with
        names := Function.update s.names file (some s.nextInode)
        inodes := Function.update s.inodes s.nextInode []
        nextInode := s.nextInode + 1 }, s.nextInode)

/-- Add an entry. -/
def note (s : State) (e : Entry) : State := { s with log := s.log ++ [e] }

end State

variable (sha : Bytes → Str)

/-- The hash of what is uploaded. -/
def NewMedia.sha256 (media : NewMedia) : Str := sha media.bytes

/-- The row of an upload. -/
def NewMedia.row (media : NewMedia) (candidate : CatalogId) : MediaRow :=
  let mime := canonicalMime media.mime
  { catalogId := candidate
    sha256 := media.sha256 sha
    kind := media.kind
    mime := if mime.isEmpty then "application/octet-stream".toList else mime
    sizeBytes := media.bytes.length
    subjectId := media.subject
    allowIds := []
    senderId := some media.subject
    uploadedByConsumer := media.uploadedByConsumer
    caption := media.caption
    description := media.description
    originalFilename := media.originalFilename
    createdAt := media.now
    updatedAt := media.now }

/-- The next id for an upload. -/
def NewMedia.mint (media : NewMedia) (catalog : Catalog) : Except Str CatalogId :=
  let mime := canonicalMime media.mime
  let mime := if mime.isEmpty then "application/octet-stream".toList else mime
  mintCatalogId catalog media.date media.kind (deriveExt media.originalFilename mime)

/-- One step of a call, and where it stands then. -/
def act (s : State) : Actor → State × Option Actor
  | .probing media =>
    match findByShaAndSubject s.catalog (media.sha256 sha) media.subject with
    | some row => (s, some (.annotating media row))
    | none => (s, some (.looking media))
  | .annotating media row =>
    ({ s with catalog :=
        backfillAnnotations s.catalog row media.caption media.description media.now },
      some (.rereading media row.catalogId true))
  | .rereading media catalogId deduplicated =>
    match s.catalog.get? catalogId with
    | some row =>
      (s.note (.stored (media.sha256 sha) media.subject row.catalogId deduplicated), none)
    | none => (s.note (.failed (.decode (if deduplicated then "dedup row vanished".toList
        else "freshly inserted row missing".toList))), none)
  | .looking media =>
    if (s.names (.blob (media.sha256 sha))).isSome then (s, some (.minting media 0))
    else (s, some (.opening media))
  | .opening media =>
    let opened := s.create (.part (media.sha256 sha))
    (opened.1, some (.writing media opened.2))
  | .writing media inode =>
    ({ s with inodes := Function.update s.inodes inode media.bytes }, some (.placing media))
  | .placing media =>
    match s.names (.part (media.sha256 sha)) with
    | some inode =>
      let names := Function.update s.names (.blob (media.sha256 sha)) (some inode)
      ({ s with names := Function.update names (.part (media.sha256 sha)) none },
        some (.minting media 0))
    | none => (s.note (.failed .io), none)
  | .minting media attempt =>
    match media.mint s.catalog with
    | .ok candidate => (s, some (.inserting media attempt candidate))
    | .error message => (s.note (.failed (.decode message)), none)
  | .inserting media attempt candidate =>
    match insertRow s.catalog (media.row sha candidate) with
    | some catalog => ({ s with catalog }, some (.rereading media candidate false))
    | none => (s, some (.reprobing media attempt))
  | .reprobing media attempt =>
    match findByShaAndSubject s.catalog (media.sha256 sha) media.subject with
    | some row =>
      (s.note (.stored (media.sha256 sha) media.subject row.catalogId true), none)
    | none =>
      if attempt + 1 < 3 then (s, some (.minting media (attempt + 1)))
      else (s.note (.failed (.decode
        "catalog-id minting kept colliding after 3 attempts".toList)), none)
  | .finding catalogId =>
    match s.catalog.get? catalogId with
    | some row => (s, some (.deleting catalogId row.sha256))
    | none => (s, none)
  | .deleting catalogId sha256 =>
    let gone := (s.catalog.get? catalogId).map fun r => Entry.removed r.sha256 r.subjectId
    ({ s with
        catalog := s.catalog.delete fun r => r.catalogId == catalogId
        log := s.log ++ gone.toList }, some (.counting sha256))
  | .counting sha256 =>
    -- the file goes with the last row that names it
    if s.catalog.rows.countP (fun r => decide (r.sha256 = sha256)) = 0 then
      (s, some (.unlinking sha256))
    else (s, none)
  | .unlinking sha256 =>
    ({ s with names := Function.update s.names (.blob sha256) none }, none)

/-- A call that is made. -/
inductive Request where
  | storeMedia (media : NewMedia)
  | remove (catalogId : CatalogId)

/-- Somebody makes a call, or a call takes its next step. -/
inductive Event where
  | begin (n : ℕ) (request : Request)
  | go (n : ℕ)

/-- A call as it begins. -/
def enter (s : State) : Request → State × Option Actor
  | .storeMedia media =>
    if !isCanonical media.kind then (s.note (.failed (.invalidKind media.kind)), none)
    else if media.bytes.isEmpty then (s.note (.failed .emptyPayload), none)
    else (s, some (.probing media))
  | .remove catalogId => (s, some (.finding catalogId))

/-- What an event does; `none` when it cannot happen. -/
def step (s : State) : Event → Option State
  | .begin n request =>
    match s.actors n with
    | some _ => none
    | none =>
      let entered := enter s request
      some { entered.1 with actors := Function.update s.actors n entered.2 }
  | .go n =>
    (s.actors n).map fun actor =>
      let acted := act sha s actor
      { acted.1 with actors := Function.update s.actors n acted.2 }

end Media

end Mwe
