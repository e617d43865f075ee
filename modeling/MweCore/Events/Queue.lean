import MweCore.Events.Recipient
import MweCore.FactIndex.Access
import MweCore.Lib.Drain
import MweCore.Lib.Json
import MweCore.Lib.Str

/-!
# The queue of events, polled and acknowledged

`pollEvents` hands a consumer the oldest events it has not acknowledged; `ackEvents` writes the
consumer into the `acks` of each.  A poll reads in batches from a cursor, because a row may be held
back: the page it names is not one its addressee may know of.

The column `acks` is a JSON object.  A consumer's slot in it is found by pasting its id behind
`$.`, which is read as a path.
-/

namespace Mwe

open Str Sql

/-- The two readers of a stored payload: the database, and the one of the program. -/
structure PayloadReaders where
  /-- `json_valid` and `json_extract` -/
  sqlite : Str → Option Json
  /-- `serde_json::from_str` -/
  serde : Str → Option Json

/-- A row of `wiki_events`. -/
structure EventRow where
  id : ℤ
  kind : Str
  wikiId : Option Str := none
  factId : Option Str := none
  payload : Option Str := none
  createdAt : Str
  acks : Json := .obj []

/-- The table `wiki_events`. -/
abbrev EventTable := Table EventRow.id

/-- An event as it is delivered. -/
structure PolledEvent where
  eventId : ℤ
  kind : Str
  wikiId : Option Str
  factId : Option Str
  payload : Json
  emittedAt : Str

namespace Events

/-! ## Rows -/

/-- The place of a row in the order of delivery. -/
def stamp (row : EventRow) : Str ×ₗ ℤ := toLex (row.createdAt, row.id)

/-- Where in `acks` a consumer is written. -/
def slot (consumerId : Str) : Option Json.Path := Json.readPath ('.' :: consumerId)

/-- Whether `json_extract` finds something. -/
def isSet : Option Json → Bool
  | none | some .null => false
  | some _ => true

/-- Whether a row is acknowledged under a slot. -/
def isAcked (path : Json.Path) (row : EventRow) : Bool := isSet (row.acks.get path)

/-- A row with a slot filled. -/
def ackRow (path : Json.Path) (now : Str) (row : EventRow) : EventRow :=
  { row with acks := Json.set (.str now) path row.acks }

/-- The recipient a poll finds in a payload. -/
def recipientOf (readers : PayloadReaders) (payload : Option Str) : Recipient :=
  match (payload.bind readers.sqlite).bind (Json.get [.key "recipient_id".toList]) with
  | none | some .null => .null
  | some (.str r) => .text r
  | some _ => .other

/-! ## The page a notice names -/

/-- The text under a key of a payload. -/
def textAt (key : Str) (payload : Json) : Option Str :=
  match payload.get [.key key] with
  | some (.str s) => some s
  | _ => none

/-- The keys under which a payload names a page. -/
def pageNamingKeys : List Str := ["document_page".toList, "source_path".toList, "path".toList]

/-- Whether a notice may go out: the page it names, if it names one, is not shut to the person it is
addressed to. -/
def allows (facts : FactTable) (groups : List EnrollmentGroup) (wikiId : Option Str)
    (payload : Json) : Bool :=
  match ((textAt "recipient_id".toList payload).bind (stripPrefix "user:".toList)).filter
      fun reader => !reader.isEmpty with
  | none => true
  | some reader =>
    match ((pageNamingKeys.findSome? fun key => textAt key payload).map trim).filter
        fun named => !named.isEmpty with
    | none => true
    | some named =>
      let path :=
        if "wikis/".toList.isPrefixOf named then some named
        else (wikiId.filter fun w => !w.isEmpty).map fun w =>
          "wikis/".toList ++ w ++ '/' :: named
      -- a page name with no wiki to resolve it against is not sent
      path.any fun path => FactIndex.pageVisibleTo facts path reader (groupsFor groups reader)

/-! ## Polling -/

/-- What a poll reads. -/
structure Store where
  queue : EventTable
  registry : Registry
  facts : FactTable

/-- Who polls, and for what. -/
structure PollScope where
  consumerId : Str
  callerId : Str
  callerIsTheOperator : Bool := false
  since : Option Str := none
  kinds : List Str := []

/-- What a poll returns. -/
structure PollOutcome where
  events : List PolledEvent
  hasMore : Bool

/-- The most events one poll returns. -/
def maxPollTopK : ℤ := 50

/-- How many rows one poll looks at. -/
def pollScanCeiling : ℕ := 500

/-- How many events a poll is asked for. -/
def pollLimit (topK : ℤ) : ℕ := (max 1 (min topK maxPollTopK)).toNat

variable (readers : PayloadReaders) (store : Store) (scope : PollScope) (path : Json.Path)

/-- Whether a row is one the consumer may receive and has not acknowledged. -/
def pending (row : EventRow) : Bool :=
  !isAcked path row &&
    row.payload.all (fun payload => (readers.sqlite payload).isSome) &&
    decide (recipientServedByConsumer store.registry scope.consumerId scope.callerId
      scope.callerIsTheOperator (recipientOf readers row.payload)).Holds &&
    decide (∀ since ∈ scope.since, since < row.createdAt) &&
    (scope.kinds.isEmpty || scope.kinds.contains row.kind)

/-- The next rows after a cursor. -/
def batchAfter (after : Option (Str ×ₗ ℤ)) (batch : ℕ) : List EventRow :=
  ((store.queue.rows.filter fun row => pending readers store scope path row &&
    decide (∀ cursor ∈ after, (ofLex cursor).1 < row.createdAt ∨
      (ofLex cursor).1 = row.createdAt ∧ (ofLex cursor).2 < row.id)).insertionSort fun a b =>
        stamp a ≤ stamp b).take batch

/-- A row as it goes out, unless it is held back. -/
def deliver (row : EventRow) : Option PolledEvent :=
  (match row.payload with
    | none => some Json.null
    | some payload => readers.serde payload).bind fun payload =>
      if allows store.facts store.registry.groups row.wikiId payload then
        some ⟨row.id, row.kind, row.wikiId, row.factId, payload, row.createdAt⟩
      else none

/-- Drain the queue for a consumer; a malformed path raises as soon as there is a row to test. -/
def pollEvents (topK : ℤ) : Option PollOutcome :=
  match slot scope.consumerId with
  | none => if store.queue.rows.isEmpty then some ⟨[], false⟩ else none
  | some path =>
    let limit := pollLimit topK
    let last := Drain.run stamp (deliver readers store) (limit + 1) pollScanCeiling
      (batchAfter readers store scope path) pollScanCeiling {}
    some
      { events := last.kept.take limit
        hasMore := limit < last.kept.length || (!last.ranOut && pollScanCeiling ≤ last.examined) }

/-! ## Acknowledging -/

/-- What an acknowledgement returns. -/
structure AckOutcome where
  acked : ℕ := 0
  unknown : List ℤ := []

/-- The statement for one event. -/
def ackEvent (consumerId now : Str) (x : EventTable × AckOutcome) (id : ℤ) :
    Option (EventTable × AckOutcome) :=
  if x.1.rows.any fun row => row.id = id then
    (slot consumerId).map fun path =>
      (x.1.update (fun row => row.id = id) (ackRow path now) fun _ => rfl,
        { x.2 with acked := x.2.acked + 1 })
  else some (x.1, { x.2 with unknown := x.2.unknown ++ [id] })

/-- Write a consumer into the `acks` of events; all of them or, when one statement fails, none. -/
def ackEvents (queue : EventTable) (consumerId now : Str) (ids : List ℤ) :
    Option (EventTable × AckOutcome) :=
  ids.foldlM (ackEvent consumerId now) (queue, {})

end Events

end Mwe
