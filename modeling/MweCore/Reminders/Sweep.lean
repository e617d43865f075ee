import MweCore.Events.Queue
import MweCore.Lib.Effect

/-!
# Dated commitments that come due

A sweep announces each commitment whose firing instant has just passed to the people it concerns:
its subject and its audience, groups opened into their members, agents dropped.  A person who has
a notice of the last year is passed over.  `dueNow` picks the commitments, `peopleToRing` the
people, and `ring` sends one notice; `sweep_spec` says what a sweep does to the queue.
-/

namespace Mwe

open Str Sql

namespace Reminders

/-! ## What a sweep reads -/

/-- A second, on a clock that counts nanoseconds. -/
def second : ℤ := 1000000000

/-- An hour. -/
def hour : ℤ := 3600 * second

/-- A day. -/
def day : ℤ := 24 * hour

/-- The operator's settings. -/
structure ReminderPolicy where
  enabled : Bool := true
  dayHourUtc : ℕ := 7
  lead : ℤ := 0
  grace : ℤ := 6 * hour
  cap : ℕ := 50

/-- The date library, and how the program writes a payload and the database reads it. -/
structure Outside where
  chrono : Chrono ℤ
  /-- `to_rfc3339`, to the nanosecond -/
  toRfc3339 : ℤ → Str
  /-- `serde_json::to_string` -/
  write : Json → Str
  readers : PayloadReaders

/-- The facts, as they were decoded, and who is enrolled. -/
structure Memory where
  facts : FactTable
  decoded : ∀ row ∈ facts, ∀ p ∈ row.subjectId :: row.allowIds, p.id ≠ []
  roster : Roster
  users : Table EnrollmentUser.userId

/-- Whether a user is an agent; somebody who is not enrolled is none. -/
def isAgent (users : Table EnrollmentUser.userId) (userId : Str) : Bool :=
  (users.get? userId).any EnrollmentUser.isAgent

/-- The active facts that end between two instants, as text, in the order in which they end. -/
def findDueBetween (facts : FactTable) (start stop : Str) : List FactRow :=
  (facts.rows.filter fun row =>
    row.isActive && row.validTo.any fun v => start ≤ v && v ≤ stop).insertionSort
      fun a b => a.validTo.getD [] ≤ b.validTo.getD []

/-! ## The commitments that have come due -/

/-- How far around now the candidates are looked for. -/
def candidateWindow : ℤ := 48 * hour

/-- How long a notice counts. -/
def alreadyRung : ℤ := 365 * day

/-- When a commitment rings; a day boundary is a date with no hour. -/
def firingInstant (validTo : ℤ) (policy : ReminderPolicy) : ℤ :=
  let secondOfDay := validTo / second % 86400
  if secondOfDay = 0 ∨ secondOfDay = 86399 then
    validTo / day * day + (min policy.dayHourUtc 23 : ℕ) * hour
  else validTo - policy.lead

variable (out : Outside) (m : Memory)

/-- Everyone a commitment rings for. -/
def peopleToRing (row : FactRow) : List Str :=
  let wires := ((row.subjectId :: row.allowIds).flatMap fun
    | .user id => ["user:".toList ++ id]
    | .group id => (membersFor m.roster.groups id).map fun member =>
        "user:".toList ++ member).eraseDups
  -- an agent has no inbox
  wires.filter fun wire => !isAgent m.users ((stripPrefix "user:".toList wire).getD wire)

/-- A commitment that has come due. -/
structure DueReminder where
  factId : Str
  wikiId : Str
  recipients : List Str
  body : Str
  dueAt : Str
  firesAt : ℤ
  deriving DecidableEq

/-- What a sweep makes of a candidate. -/
def dueReminder (policy : ReminderPolicy) (now : ℤ) (row : FactRow) : Option DueReminder :=
  if row.factType ≠ some "plan".toList then none
  -- a closure wrote this end
  else if row.decayReason.isSome then none
  else
    row.validTo.bind fun validTo => (out.chrono.parseFromRfc3339 validTo).bind fun parsed =>
      let firesAt := firingInstant parsed policy
      if firesAt > now ∨ firesAt ≤ now - policy.grace then none
      else
        let recipients := peopleToRing m row
        if recipients.isEmpty then none
        else some
          { factId := row.factId.val, wikiId := row.wikiId, recipients, body := row.text
            dueAt := validTo, firesAt }

/-- The candidates of a sweep. -/
def candidates (now : ℤ) : List FactRow :=
  findDueBetween m.facts (out.chrono.toRfc3339Secs (now - candidateWindow))
    (out.chrono.toRfc3339Secs (now + candidateWindow))

/-- The commitments whose firing instant has just passed, at most `cap` of them. -/
def dueNow (policy : ReminderPolicy) (now : ℤ) : List DueReminder :=
  if policy.enabled then
    ((candidates out m now).filterMap (dueReminder out m policy now)).take policy.cap
  else []

/-! ## The sweep -/

/-- What one sweep did. -/
structure SweepReport where
  examined : ℕ := 0
  emitted : List Str := []
  alreadyRung : ℕ := 0

/-- A notice that was sent, and when. -/
structure Notice where
  reminder : DueReminder
  recipient : Str
  sentAt : ℤ
  deriving DecidableEq

/-- The queue of events, the report, and what was sent. -/
structure Round where
  queue : EventTable
  report : SweepReport := {}
  sent : List Notice := []

/-- An event that may not be written. -/
inductive EventsError where
  | notAnAddressee (recipientId : Str)

/-- The kind of the notices. -/
def reminderDue : Str := "reminder_due".toList

/-- Whether a notice about a fact went to a recipient within a window. -/
def findRecentEventForRecipient (queue : EventTable) (clock : ℤ) (kind factId recipient : Str)
    (window : ℤ) : Bool :=
  queue.rows.any fun row =>
    row.kind = kind && row.factId = some factId && out.toRfc3339 (clock - window) ≤ row.createdAt &&
      Events.recipientOf out.readers row.payload = .text recipient

/-- The id of the next event. -/
def nextId (queue : EventTable) : ℤ := (queue.rows.map EventRow.id).foldr max 0 + 1

lemma lt_nextId {queue : EventTable} {row : EventRow} (h : row ∈ queue) :
    row.id < nextId queue := by
  suffices hmax : ∀ ids : List ℤ, ∀ id ∈ ids, id ≤ ids.foldr max 0 by
    have := hmax (queue.rows.map EventRow.id) row.id (List.mem_map_of_mem h)
    unfold nextId
    omega
  intro ids
  induction ids with
  | nil => simp
  | cons x ids ih =>
    intro id hid
    rw [List.foldr_cons]
    rcases List.mem_cons.mp hid with rfl | hid
    · exact le_max_left _ _
    · exact (ih id hid).trans (le_max_right _ _)

/-- The queue with one more event. -/
def push (queue : EventTable) (row : EventRow) : EventTable where
  rows := queue.rows ++ [{ row with id := nextId queue }]
  nodup := by
    rw [List.map_append, List.map_singleton, List.nodup_append_comm]
    refine List.nodup_cons.mpr ⟨?_, queue.nodup⟩
    intro hmem
    obtain ⟨old, hold, hid⟩ := List.mem_map.mp hmem
    exact absurd hid (lt_nextId hold).ne

/-- Write an event; one that names a recipient must name one in its wire form. -/
def insertEvent (queue : EventTable) (clock : ℤ) (kind : Str) (wikiId factId : Option Str)
    (payload : Json) : Except EventsError EventTable :=
  let row : EventRow :=
    { id := 0, kind, wikiId, factId, payload := some (out.write payload)
      createdAt := out.toRfc3339 clock }
  match Events.textAt "recipient_id".toList payload with
  | none => .ok (push queue row)
  | some r => if (Events.canonicalAddressee r).isSome then .ok (push queue row)
    else .error (.notAnAddressee r)

/-- What a notice says. -/
def payload (chrono : Chrono ℤ) (r : DueReminder) (recipient : Str) : Json :=
  .obj
    [("recipient_id".toList, .str recipient), ("due_at".toList, .str r.dueAt),
      ("fires_at".toList, .str (chrono.toRfc3339Secs r.firesAt)),
      ("facts".toList, .arr [.obj [("fact_id".toList, .str r.factId),
        ("wiki_id".toList, .str r.wikiId), ("body".toList, .str r.body)]]),
      ("dashboard_path".toList, .str ("/dashboard/wiki/".toList ++ r.wikiId))]

/-- Announce a commitment to one of its people. -/
def ring (clock : ℤ) (r : DueReminder) (recipient : Str) : EStateM EventsError Round Unit :=
  fun s =>
    if findRecentEventForRecipient out s.queue clock reminderDue r.factId recipient alreadyRung then
      .ok () { s with report := { s.report with alreadyRung := s.report.alreadyRung + 1 } }
    else
      match insertEvent out s.queue clock reminderDue (some r.wikiId) (some r.factId)
        (payload out.chrono r recipient) with
      | .error e => .error e s
      | .ok queue => .ok ()
        { queue
          report := { s.report with emitted := s.report.emitted ++ [r.factId] }
          sent := s.sent ++ [⟨r, recipient, clock⟩] }

/-- Announce every commitment that has come due. -/
def sweep (policy : ReminderPolicy) (now clock : ℤ) : EStateM EventsError Round Unit := do
  modify fun s => { s with report := { examined := (dueNow out m policy now).length } }
  (dueNow out m policy now).forM fun r =>
    r.recipients.forM fun recipient => ring out clock r recipient

/-! ## Whom a commitment concerns -/

/-- A commitment concerns a person that its subject or its audience names or lists, unless the
person is an agent. -/
def Concerns (row : FactRow) (userId : Str) : Prop :=
  isAgent m.users userId = false ∧ ∃ p ∈ row.subjectId :: row.allowIds,
    p = .user userId ∨ ∃ groupId, p = .group groupId ∧ userId ∈ membersFor m.roster.groups groupId

/-- A commitment is due: a plan nobody closed, whose firing instant has just passed, and which
concerns somebody. -/
structure Due (policy : ReminderPolicy) (now : ℤ) (row : FactRow) : Prop where
  isPlan : row.factType = some "plan".toList
  unclosed : row.decayReason = none
  fires : ∃ validTo ∈ row.validTo, ∃ parsed ∈ out.chrono.parseFromRfc3339 validTo,
    firingInstant parsed policy ≤ now ∧ now - policy.grace < firingInstant parsed policy
  concerns : ∃ userId, Concerns m row userId

variable {out m} {policy : ReminderPolicy} {now clock : ℤ}

lemma mem_peopleToRing {row : FactRow} {wire : Str} :
    wire ∈ peopleToRing m row ↔
      ∃ userId, wire = "user:".toList ++ userId ∧ Concerns m row userId := by
  have hstrip : ∀ userId : Str,
      (stripPrefix "user:".toList ("user:".toList ++ userId)).getD
        ("user:".toList ++ userId) = userId := by
    intro userId
    rw [stripPrefix_eq_some_iff.mpr rfl, Option.getD_some]
  simp only [peopleToRing, List.mem_filter, List.mem_eraseDups, List.mem_flatMap,
    Bool.not_eq_true', Concerns]
  constructor
  · rintro ⟨⟨p, hp, hwire⟩, hagent⟩
    cases p with
    | user userId =>
      obtain rfl := List.mem_singleton.mp hwire
      rw [hstrip] at hagent
      exact ⟨userId, rfl, hagent, _, hp, Or.inl rfl⟩
    | group groupId =>
      obtain ⟨userId, hmember, rfl⟩ := List.mem_map.mp hwire
      rw [hstrip] at hagent
      exact ⟨userId, rfl, hagent, _, hp, Or.inr ⟨groupId, rfl, hmember⟩⟩
  · rintro ⟨userId, rfl, hagent, p, hp, hopens⟩
    rw [hstrip]
    refine ⟨⟨p, hp, ?_⟩, hagent⟩
    rcases hopens with rfl | ⟨groupId, rfl, hmember⟩
    · exact List.mem_singleton_self _
    · exact List.mem_map_of_mem hmember

/-- The reminder of a commitment. -/
lemma dueReminder_eq_some_iff {row : FactRow} {r : DueReminder} :
    dueReminder out m policy now row = some r ↔ Due out m policy now row ∧
      r.factId = row.factId.val ∧ r.wikiId = row.wikiId ∧ r.recipients = peopleToRing m row ∧
      r.body = row.text ∧ row.validTo = some r.dueAt ∧
      ∃ parsed ∈ out.chrono.parseFromRfc3339 r.dueAt, r.firesAt = firingInstant parsed policy := by
  unfold dueReminder
  constructor
  · intro h
    split_ifs at h with hplan hclosed
    obtain ⟨validTo, hvalidTo, h⟩ := Option.bind_eq_some_iff.mp h
    obtain ⟨parsed, hparsed, h⟩ := Option.bind_eq_some_iff.mp h
    simp only at h
    split_ifs at h with hfires hnobody
    obtain rfl := Option.some.inj h
    rw [not_or, not_lt, not_le] at hfires
    rw [List.isEmpty_iff] at hnobody
    obtain ⟨wire, hwire⟩ := List.exists_mem_of_ne_nil _ hnobody
    obtain ⟨userId, -, hconcerns⟩ := mem_peopleToRing.mp hwire
    exact ⟨⟨not_not.mp hplan, by simpa using hclosed,
      ⟨validTo, hvalidTo, parsed, hparsed, hfires⟩, userId, hconcerns⟩,
      rfl, rfl, rfl, rfl, hvalidTo, parsed, hparsed, rfl⟩
  · rintro ⟨hdue, hfact, hwiki, hpeople, hbody, hvalidTo, parsed, hparsed, hfires⟩
    obtain ⟨validTo, hvalidTo', parsed', hparsed', hwindow⟩ := hdue.fires
    obtain rfl : r.dueAt = validTo := Option.some.inj (hvalidTo.symm.trans hvalidTo')
    obtain rfl : parsed = parsed' := Option.some.inj (hparsed.symm.trans hparsed')
    obtain ⟨userId, hconcerns⟩ := hdue.concerns
    have hpeople' : (peopleToRing m row).isEmpty = false := by
      rw [List.isEmpty_eq_false_iff]
      exact List.ne_nil_of_mem (mem_peopleToRing.mpr ⟨userId, rfl, hconcerns⟩)
    rw [if_neg (not_not.mpr hdue.isPlan), if_neg (by simp [hdue.unclosed]), hvalidTo,
      Option.bind_some, hparsed, Option.bind_some]
    simp only [hpeople', Bool.false_eq_true, if_false]
    rw [if_neg (by omega), ← hfact, ← hwiki, ← hpeople, ← hbody, ← hfires]

lemma isSome_dueReminder_iff {row : FactRow} :
    (dueReminder out m policy now row).isSome = true ↔ Due out m policy now row := by
  rw [Option.isSome_iff_exists]
  constructor
  · rintro ⟨r, hr⟩
    exact (dueReminder_eq_some_iff.mp hr).1
  · intro hdue
    obtain ⟨validTo, hvalidTo, parsed, hparsed, -⟩ := hdue.fires
    exact ⟨⟨row.factId.val, row.wikiId, peopleToRing m row, row.text, validTo,
      firingInstant parsed policy⟩, dueReminder_eq_some_iff.mpr
        ⟨hdue, rfl, rfl, rfl, rfl, hvalidTo, parsed, hparsed, rfl⟩⟩

/-- What the first results of a filtering map come from. -/
lemma mem_take_filterMap_iff {α β : Type*} {f : α → Option β} {xs : List α} {n : ℕ} {y : β} :
    y ∈ (xs.filterMap f).take n ↔ ∃ before x after, xs = before ++ x :: after ∧ f x = some y ∧
      before.countP (fun a => (f a).isSome) < n := by
  induction xs generalizing n with
  | nil => simp
  | cons z zs ih =>
    cases hz : f z with
    | none =>
      rw [List.filterMap_cons_none hz, ih]
      constructor
      · rintro ⟨before, x, after, rfl, hx, hlt⟩
        exact ⟨z :: before, x, after, rfl, hx, by simpa [hz] using hlt⟩
      · rintro ⟨before, x, after, heq, hx, hlt⟩
        cases before with
        | nil =>
          obtain ⟨rfl, -⟩ := List.cons.inj heq
          rw [hz] at hx
          cases hx
        | cons b before =>
          obtain ⟨rfl, rfl⟩ := List.cons.inj heq
          exact ⟨before, x, after, rfl, hx, by simpa [hz] using hlt⟩
    | some w =>
      rw [List.filterMap_cons_some hz]
      cases n with
      | zero => simp
      | succ n =>
        rw [List.take_succ_cons, List.mem_cons, ih]
        constructor
        · rintro (rfl | ⟨before, x, after, rfl, hx, hlt⟩)
          · exact ⟨[], z, zs, rfl, hz, by simp⟩
          · exact ⟨z :: before, x, after, rfl, hx, by simpa [hz] using hlt⟩
        · rintro ⟨before, x, after, heq, hx, hlt⟩
          cases before with
          | nil =>
            obtain ⟨rfl, -⟩ := List.cons.inj heq
            exact Or.inl (Option.some.inj (hx.symm.trans hz))
          | cons b before =>
            obtain ⟨rfl, rfl⟩ := List.cons.inj heq
            exact Or.inr ⟨before, x, after, rfl, hx, by simpa [hz] using hlt⟩

open scoped Classical in
/-- A commitment is announced: it is due, and fewer than `cap` of the candidates before it are. -/
def Announced (out : Outside) (m : Memory) (policy : ReminderPolicy) (now : ℤ) (row : FactRow) :
    Prop :=
  policy.enabled = true ∧ Due out m policy now row ∧ ∃ before after,
    candidates out m now = before ++ row :: after ∧
      before.countP (fun x => decide (Due out m policy now x)) < policy.cap

lemma mem_dueNow_iff {r : DueReminder} : r ∈ dueNow out m policy now ↔
    ∃ row, Announced out m policy now row ∧ dueReminder out m policy now row = some r := by
  classical
  have hcount : (fun x => (dueReminder out m policy now x).isSome) =
      fun x => decide (Due out m policy now x) := by
    funext x
    rw [Bool.eq_iff_iff, isSome_dueReminder_iff, decide_eq_true_eq]
  unfold dueNow
  split_ifs with henabled
  · rw [mem_take_filterMap_iff, hcount]
    constructor
    · rintro ⟨before, row, after, hsplit, hr, hlt⟩
      exact ⟨row, ⟨henabled, (dueReminder_eq_some_iff.mp hr).1, before, after, hsplit,
        by convert hlt⟩, hr⟩
    · rintro ⟨row, ⟨-, -, before, after, hsplit, hlt⟩, hr⟩
      exact ⟨before, row, after, hsplit, hr, by convert hlt⟩
  · simp [Announced, henabled]

lemma mem_candidates_iff {row : FactRow} : row ∈ candidates out m now ↔
    row ∈ m.facts ∧ row.isActive = true ∧ ∃ validTo ∈ row.validTo,
      out.chrono.toRfc3339Secs (now - candidateWindow) ≤ validTo ∧
        validTo ≤ out.chrono.toRfc3339Secs (now + candidateWindow) := by
  simp [candidates, findDueBetween, Table.mem_iff, Option.any_eq_true]

lemma Announced.mem {row : FactRow} (h : Announced out m policy now row) : row ∈ m.facts := by
  obtain ⟨-, -, before, after, hsplit, -⟩ := h
  exact (mem_candidates_iff.mp (hsplit ▸ by simp : row ∈ candidates out m now)).1

/-! ## One notice -/

/-- The database finds the recipient in every notice the program writes. -/
def ReadsBack (out : Outside) (m : Memory) (policy : ReminderPolicy) : Prop :=
  ∀ row ∈ m.facts, ∀ now r, dueReminder out m policy now row = some r → ∀ recipient ∈ r.recipients,
    Events.recipientOf out.readers (some (out.write (payload out.chrono r recipient))) =
      .text recipient

/-- The event of a notice. -/
def eventOf (out : Outside) (n : Notice) (id : ℤ) : EventRow where
  id := id
  kind := reminderDue
  wikiId := some n.reminder.wikiId
  factId := some n.reminder.factId
  payload := some (out.write (payload out.chrono n.reminder n.recipient))
  createdAt := out.toRfc3339 n.sentAt

/-- Whether a recipient already has a notice about a commitment. -/
def Rung (out : Outside) (queue : EventTable) (clock : ℤ) (factId recipient : Str) : Prop :=
  findRecentEventForRecipient out queue clock reminderDue factId recipient alreadyRung = true

lemma rung_iff {queue : EventTable} {factId recipient : Str} :
    Rung out queue clock factId recipient ↔ ∃ row ∈ queue, row.kind = reminderDue ∧
      row.factId = some factId ∧ out.toRfc3339 (clock - alreadyRung) ≤ row.createdAt ∧
      Events.recipientOf out.readers row.payload = .text recipient := by
  simp [Rung, findRecentEventForRecipient, Table.mem_iff, and_assoc]

/-- What one announcement does. -/
lemma ring_cases {s t : Round} {r : DueReminder} {recipient : Str}
    (h : ring out clock r recipient s = .ok () t) :
    (Rung out s.queue clock r.factId recipient ∧ t.queue = s.queue ∧ t.sent = s.sent) ∨
      (¬ Rung out s.queue clock r.factId recipient ∧
        t.queue.rows = s.queue.rows ++ [eventOf out ⟨r, recipient, clock⟩ (nextId s.queue)] ∧
        t.sent = s.sent ++ [⟨r, recipient, clock⟩]) := by
  have hrecipient : Events.textAt "recipient_id".toList (payload out.chrono r recipient) =
      some recipient := rfl
  unfold ring at h
  split_ifs at h with hrung
  · obtain ⟨-, rfl⟩ := EStateM.Result.ok.inj h
    exact Or.inl ⟨hrung, rfl, rfl⟩
  · simp only [insertEvent, hrecipient] at h
    split at h
    · cases h
    · next queue hinsert =>
      split_ifs at hinsert
      obtain rfl := Except.ok.inj hinsert
      obtain ⟨-, rfl⟩ := EStateM.Result.ok.inj h
      exact Or.inr ⟨hrung, rfl, rfl⟩

lemma exists_ring {recipient : Str} (hwire : (Events.canonicalAddressee recipient).isSome = true)
    (s : Round) (r : DueReminder) : ∃ t, ring out clock r recipient s = .ok () t := by
  have hrecipient : Events.textAt "recipient_id".toList (payload out.chrono r recipient) =
      some recipient := rfl
  unfold ring
  split_ifs with hrung
  · exact ⟨_, rfl⟩
  · simp only [insertEvent, hrecipient, hwire, if_true]
    exact ⟨_, rfl⟩

/-- The people a due commitment rings for can be addressed. -/
lemma isSome_canonicalAddressee {row : FactRow} (hrow : row ∈ m.facts) {recipient : Str}
    (h : recipient ∈ peopleToRing m row) :
    (Events.canonicalAddressee recipient).isSome = true := by
  obtain ⟨userId, rfl, -, p, hp, hopens⟩ := mem_peopleToRing.mp h
  have hid : userId ≠ [] := by
    rcases hopens with rfl | ⟨groupId, rfl, hmember⟩
    · exact m.decoded row hrow _ hp
    · rintro rfl
      rw [m.roster.mem_membersFor_iff] at hmember
      simp [groupsFor] at hmember
  rw [Option.isSome_iff_exists]
  exact ⟨.user userId, Events.canonicalAddressee_eq_some_iff.mpr ⟨rfl, hid⟩⟩

/-! ## A sweep -/

/-- Whom a sweep tells what, in order. -/
def pairs (rs : List DueReminder) : List (DueReminder × Str) :=
  rs.flatMap fun r => r.recipients.map fun recipient => (r, recipient)

lemma mem_pairs_iff {rs : List DueReminder} {x : DueReminder × Str} :
    x ∈ pairs rs ↔ x.1 ∈ rs ∧ x.2 ∈ x.1.recipients := by
  simp only [pairs, List.mem_flatMap, List.mem_map]
  constructor
  · rintro ⟨r, hr, recipient, hrecipient, rfl⟩
    exact ⟨hr, hrecipient⟩
  · exact fun ⟨hr, hrecipient⟩ => ⟨x.1, hr, x.2, hrecipient, rfl⟩

/-- Whoever an announced commitment concerns is told. -/
lemma exists_mem_pairs {row : FactRow} (h : Announced out m policy now row) {userId : Str}
    (hconcerns : Concerns m row userId) : ∃ r, r.factId = row.factId.val ∧
      (r, (Principal.user userId).display) ∈ pairs (dueNow out m policy now) := by
  obtain ⟨r, hr⟩ := Option.isSome_iff_exists.mp (isSome_dueReminder_iff.mpr h.2.1)
  obtain ⟨-, hfact, -, hpeople, -⟩ := dueReminder_eq_some_iff.mp hr
  refine ⟨r, hfact, mem_pairs_iff.mpr ⟨mem_dueNow_iff.mpr ⟨row, h, hr⟩, ?_⟩⟩
  rw [hpeople]
  exact mem_peopleToRing.mpr ⟨userId, rfl, hconcerns⟩

/-- A sweep does not fail, and what holds after every announcement holds after it. -/
lemma sweep_ok {I : List (DueReminder × Str) → Round → Prop} {s : Round}
    (hround : ∀ done, ∀ x ∈ pairs (dueNow out m policy now), ∀ s t, I done s →
      ring out clock x.1 x.2 s = .ok () t → I (done ++ [x]) t)
    (h : I [] { s with report := { examined := (dueNow out m policy now).length } }) :
    ∃ t, sweep out m policy now clock s = .ok () t ∧ I (pairs (dueNow out m policy now)) t := by
  have hrounds : ∀ done : List DueReminder, ∀ r ∈ dueNow out m policy now, ∀ s, I (pairs done) s →
      ∃ t, (r.recipients.forM fun recipient => ring out clock r recipient) s = .ok () t ∧
        I (pairs (done ++ [r])) t := by
    intro done r hr s hI
    have hlast : pairs (done ++ [r]) = pairs done ++ r.recipients.map fun w => (r, w) := by
      simp [pairs]
    rw [hlast]
    refine @Effect.forM_ok _ _ _ _ r.recipients
      (fun called s => I (pairs done ++ called.map fun w => (r, w)) s) ?_ [] s (by simpa using hI)
    intro called recipient hrecipient s hI
    obtain ⟨row, hannounced, hrow⟩ := mem_dueNow_iff.mp hr
    have hpeople : recipient ∈ peopleToRing m row := by
      rwa [← (dueReminder_eq_some_iff.mp hrow).2.2.2.1]
    obtain ⟨t, ht⟩ := exists_ring (isSome_canonicalAddressee hannounced.mem hpeople) s r
    refine ⟨t, ht, ?_⟩
    have hnext := hround _ (r, recipient) (mem_pairs_iff.mpr ⟨hr, hrecipient⟩) s t hI ht
    simpa using hnext
  obtain ⟨t, ht, hI⟩ := @Effect.forM_ok _ _ _ _ (dueNow out m policy now)
    (fun done s => I (pairs done) s) hrounds [] _ h
  exact ⟨t, ht, hI⟩

/-- What holds after some of the announcements. -/
structure Rang (out : Outside) (clock : ℤ) (s : Round) (done : List (DueReminder × Str))
    (t : Round) : Prop where
  kept : ∀ row ∈ s.queue, row ∈ t.queue
  sent : ∀ n ∈ t.sent, n ∈ s.sent ∨ (n.reminder, n.recipient) ∈ done ∧
    ¬ Rung out s.queue clock n.reminder.factId n.recipient
  written : ∀ row ∈ t.queue, row ∈ s.queue ∨ ∃ n ∈ t.sent, (n.reminder, n.recipient) ∈ done ∧
    row = eventOf out n row.id
  all : ∀ x ∈ done, Rung out s.queue clock x.1.factId x.2 ∨ ∃ n ∈ t.sent,
    n.reminder.factId = x.1.factId ∧ n.recipient = x.2 ∧ (n.reminder, n.recipient) ∈ done ∧
    ∃ row ∈ t.queue, row = eventOf out n row.id

lemma Rang.refl (s : Round) (report : SweepReport) :
    Rang out clock s [] { s with report := report } where
  kept := fun _ h => h
  sent := fun _ h => Or.inl h
  written := fun _ h => Or.inl h
  all := by simp

/-- An announcement on top of others. -/
lemma Rang.ring {s t u : Round} {done : List (DueReminder × Str)} {r : DueReminder}
    {recipient : Str} (h : Rang out clock s done t)
    (hreads : ∀ x ∈ done,
      Events.recipientOf out.readers (some (out.write (payload out.chrono x.1 x.2))) = .text x.2)
    (hring : Reminders.ring out clock r recipient t = .ok () u) :
    Rang out clock s (done ++ [(r, recipient)]) u := by
  have hmore : ∀ x ∈ done, x ∈ done ++ [(r, recipient)] := fun x hx => List.mem_append_left _ hx
  rcases ring_cases hring with ⟨hrung, hqueue, hsent⟩ | ⟨hrung, hrows, hsent⟩
  · constructor
    · rw [hqueue]
      exact h.kept
    · intro n hn
      rw [hsent] at hn
      exact (h.sent n hn).imp_right fun ⟨hdone, hnot⟩ => ⟨hmore _ hdone, hnot⟩
    · intro row hrow
      rw [hqueue] at hrow
      rw [hsent]
      exact (h.written row hrow).imp_right fun ⟨n, hn, hdone, heq⟩ => ⟨n, hn, hmore _ hdone, heq⟩
    · intro x hx
      rw [hqueue, hsent]
      rcases List.mem_append.mp hx with hx | hx
      · exact (h.all x hx).imp_right fun ⟨n, hn, hfact, hrecipient, hdone, hrow⟩ =>
          ⟨n, hn, hfact, hrecipient, hmore _ hdone, hrow⟩
      obtain rfl := List.mem_singleton.mp hx
      -- the notice that stopped this one is older than the sweep, or of the sweep itself
      obtain ⟨row, hrow, hkind, hfact, hrecent, hrecipient⟩ := rung_iff.mp hrung
      rcases h.written row hrow with hold | ⟨n, hn, hdone, heq⟩
      · exact Or.inl (rung_iff.mpr ⟨row, hold, hkind, hfact, hrecent, hrecipient⟩)
      · rw [heq] at hfact hrecipient
        have hread := (hreads _ hdone).symm.trans hrecipient
        exact Or.inr ⟨n, hn, Option.some.inj hfact, Events.Recipient.text.inj hread, hmore _ hdone,
          row, hrow, heq⟩
  · have hqueue : ∀ row, row ∈ u.queue ↔ row ∈ t.queue ∨
        row = eventOf out ⟨r, recipient, clock⟩ (nextId t.queue) := by
      intro row
      rw [Table.mem_iff, hrows]
      simp [Table.mem_iff]
    have hsent' : ∀ n, n ∈ u.sent ↔ n ∈ t.sent ∨ n = ⟨r, recipient, clock⟩ := by
      intro n
      rw [hsent]
      simp
    constructor
    · exact fun row hrow => (hqueue row).mpr (Or.inl (h.kept row hrow))
    · intro n hn
      rcases (hsent' n).mp hn with hn | rfl
      · exact (h.sent n hn).imp_right fun ⟨hdone, hnot⟩ => ⟨hmore _ hdone, hnot⟩
      · refine Or.inr ⟨by simp, fun hold => hrung ?_⟩
        obtain ⟨row, hrow, hrest⟩ := rung_iff.mp hold
        exact rung_iff.mpr ⟨row, h.kept row hrow, hrest⟩
    · intro row hrow
      rcases (hqueue row).mp hrow with hrow | rfl
      · exact (h.written row hrow).imp_right fun ⟨n, hn, hdone, heq⟩ =>
          ⟨n, (hsent' n).mpr (Or.inl hn), hmore _ hdone, heq⟩
      · exact Or.inr ⟨_, (hsent' _).mpr (Or.inr rfl), by simp, rfl⟩
    · intro x hx
      rcases List.mem_append.mp hx with hx | hx
      · exact (h.all x hx).imp_right fun ⟨n, hn, hfact, hrecipient, hdone, row, hrow, heq⟩ =>
          ⟨n, (hsent' n).mpr (Or.inl hn), hfact, hrecipient, hmore _ hdone, row,
            (hqueue row).mpr (Or.inl hrow), heq⟩
      · obtain rfl := List.mem_singleton.mp hx
        exact Or.inr ⟨_, (hsent' _).mpr (Or.inr rfl), rfl, rfl, by simp, _,
          (hqueue _).mpr (Or.inr rfl), rfl⟩

lemma reads_of_mem_pairs (hread : ReadsBack out m policy) {x : DueReminder × Str}
    (h : x ∈ pairs (dueNow out m policy now)) :
    Events.recipientOf out.readers (some (out.write (payload out.chrono x.1 x.2))) = .text x.2 := by
  obtain ⟨hdue, hrecipient⟩ := mem_pairs_iff.mp h
  obtain ⟨row, hannounced, hr⟩ := mem_dueNow_iff.mp hdue
  exact hread row hannounced.mem now x.1 hr x.2 hrecipient

/-- What a sweep does. -/
lemma sweep_spec (hread : ReadsBack out m policy) (s : Round) :
    ∃ t, sweep out m policy now clock s = .ok () t ∧
      Rang out clock s (pairs (dueNow out m policy now)) t := by
  obtain ⟨t, hsweep, -, hrang⟩ := @sweep_ok out m policy now clock
    (fun done t => (∀ x ∈ done, x ∈ pairs (dueNow out m policy now)) ∧ Rang out clock s done t) s
    (by
      rintro done x hx u v ⟨hdone, hrang⟩ hring
      refine ⟨?_, hrang.ring (fun x hx => reads_of_mem_pairs hread (hdone x hx)) hring⟩
      intro y hy
      rcases List.mem_append.mp hy with hy | hy
      · exact hdone y hy
      · rwa [List.mem_singleton.mp hy])
    ⟨by simp, Rang.refl s _⟩
  exact ⟨t, hsweep, hrang⟩

end Reminders

end Mwe
