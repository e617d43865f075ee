import MweCore.Reminders.Sweep

/-!
# Who is told of a commitment

The people a commitment rings are found by a walk of its own over two of the axes of the fact.
`rings_readers_iff` says when everybody it finds may read the fact.
-/

namespace Mwe

open Str Sql

namespace Reminders

variable {out : Outside} {m : Memory}

/-- What a sweep sends. -/
def sentBy (out : Outside) (m : Memory) (policy : ReminderPolicy) (now clock : ℤ)
    (queue : EventTable) : List Notice :=
  (Effect.final (sweep out m policy now clock { queue })).sent

/-- Every notice carries the text of a fact to a person who may read it. -/
def RingsReaders (out : Outside) (m : Memory) (policy : ReminderPolicy) (now clock : ℤ)
    (queue : EventTable) : Prop :=
  ∀ n ∈ sentBy out m policy now clock queue, ∃ row ∈ m.facts,
    row.factId.val = n.reminder.factId ∧ row.text = n.reminder.body ∧
      ∃ userId, n.recipient = (Principal.user userId).display ∧
        canRead row.acl.toAcl userId (groupsFor m.roster.groups userId) row.senderId = true

/-- A person is kept from a fact, by name or through a group. -/
def KeptFrom (m : Memory) (row : FactRow) (userId : Str) : Prop :=
  ∃ p ∈ row.excludedIds, principalMatches p userId (groupsFor m.roster.groups userId) = true

/-- Whom a fact concerns may read it, unless it is kept from them. -/
lemma canRead_of_concerns {row : FactRow} {userId : Str} (h : Concerns m row userId) :
    canRead row.acl.toAcl userId (groupsFor m.roster.groups userId) row.senderId = true ↔
      ¬ KeptFrom m row userId := by
  obtain ⟨-, p, hp, hopens⟩ := h
  have hheld : p ∈ Holds userId (groupsFor m.roster.groups userId) := by
    rw [← principalMatches_iff]
    rcases hopens with rfl | ⟨groupId, rfl, hmember⟩
    · simp [principalMatches]
    · rw [m.roster.mem_membersFor_iff] at hmember
      simp [principalMatches, hmember]
  have hgrants :
      row.acl.toAcl.subject = some p ∨ p ∈ row.acl.toAcl.allow ∨ row.senderId = some p := by
    rcases List.mem_cons.mp hp with rfl | hp
    · exact Or.inl rfl
    · exact Or.inr (Or.inl hp)
  rw [canRead_eq_true_iff]
  constructor
  · rintro ⟨hexcluded, -⟩ ⟨q, hq, hmatch⟩
    exact hexcluded q hq (principalMatches_iff.mp hmatch)
  · intro hkept
    exact ⟨fun q hq hmatch => hkept ⟨q, hq, principalMatches_iff.mpr hmatch⟩, p, hheld, hgrants⟩

/-- Every notice goes to a reader exactly when no announced commitment is kept from somebody it
concerns who has no notice of it yet. -/
theorem rings_readers_iff (out : Outside) (m : Memory) (policy : ReminderPolicy) (now clock : ℤ)
    (queue : EventTable) (hread : ReadsBack out m policy) :
    RingsReaders out m policy now clock queue ↔
      ∀ row, Announced out m policy now row → ∀ userId, Concerns m row userId →
        ¬ Rung out queue clock row.factId.val (Principal.user userId).display →
          ¬ KeptFrom m row userId := by
  obtain ⟨t, hsweep, hrang⟩ := @sweep_spec out m policy now clock hread { queue }
  have hsent : sentBy out m policy now clock queue = t.sent := by
    rw [sentBy, hsweep, Effect.final_ok]
  unfold RingsReaders
  rw [hsent]
  constructor
  · intro h row hannounced userId hconcerns hrung
    obtain ⟨r, hfact, hpair⟩ := exists_mem_pairs hannounced hconcerns
    rcases hrang.all _ hpair with hold | ⟨n, hn, hfact', hrecipient, -⟩
    · rw [hfact] at hold
      exact absurd hold hrung
    obtain ⟨row', hrow', hid, -, userId', hwire, hreadable⟩ := h n hn
    have hsame : row'.factId = row.factId :=
      FactId.val_injective (hid.trans (hfact'.trans hfact))
    obtain rfl : row' = row := Table.eq_of_key_eq hrow' hannounced.mem hsame
    have huser : Principal.user userId' = Principal.user userId :=
      Principal.display_injective (hwire.symm.trans hrecipient)
    obtain rfl := Principal.user.inj huser
    exact (canRead_of_concerns hconcerns).mp hreadable
  · intro h n hn
    rcases hrang.sent n hn with hold | ⟨hpair, hrung⟩
    · cases hold
    obtain ⟨hdue, hrecipient⟩ := mem_pairs_iff.mp hpair
    obtain ⟨row, hannounced, hr⟩ := mem_dueNow_iff.mp hdue
    obtain ⟨-, hfact, -, hpeople, hbody, -⟩ := dueReminder_eq_some_iff.mp hr
    rw [hpeople] at hrecipient
    obtain ⟨userId, hwire, hconcerns⟩ := mem_peopleToRing.mp hrecipient
    refine ⟨row, hannounced.mem, hfact.symm, hbody.symm, userId, hwire, ?_⟩
    refine (canRead_of_concerns hconcerns).mpr (h row hannounced userId hconcerns ?_)
    have hwire' : n.recipient = (Principal.user userId).display := hwire
    rwa [← hfact, ← hwire']

/-! ### A surprise party -/

/-- The instant the party is set for. -/
def partyTime : ℤ := 1783177200000000000

/-- A plan of both parents, kept from one of them. -/
def partyFact : FactRow where
  factId := ⟨"018f1234-5678-7abc-9def-000000000001".toList, by decide⟩
  wikiId := "casa".toList
  sourcePath := "wikis/casa/feste.md".toList
  text := "Party.".toList
  subjectId := .group "parents".toList
  excludedIds := [.user "bruno".toList]
  factType := some "plan".toList
  validFrom := none
  validTo := some "2026-07-04T15:00:00Z".toList
  updatedAt := "2026-07-01T09:00:00Z".toList

/-- The date library, at the instants of the example. -/
def partyChrono : Chrono ℤ where
  parseFromRfc3339 s := if s = "2026-07-04T15:00:00Z".toList then some partyTime else none
  toRfc3339Secs t :=
    if t < partyTime then "2026-07-02T15:00:00Z".toList
    else if t = partyTime then "2026-07-04T15:00:00Z".toList
    else "2026-07-06T15:00:00Z".toList

/-- The people of the party. -/
def partyPeople : List Str := ["user:anna".toList, "user:bruno".toList]

/-- A plan for the hour of the party, come due. -/
def partyReminder (row : FactRow) : DueReminder where
  factId := row.factId.val
  wikiId := row.wikiId
  recipients := partyPeople
  body := row.text
  dueAt := "2026-07-04T15:00:00Z".toList
  firesAt := partyTime

/-- The payload of a notice of a plan for that hour, written out. -/
def partyPayload (factId body recipient : Str) : Str :=
  "\x7b\"dashboard_path\":\"/dashboard/wiki/casa\",\"due_at\":\"2026-07-04T15:00:00Z\",".toList ++
    "\"facts\":[\x7b\"body\":\"".toList ++ body ++ "\",\"fact_id\":\"".toList ++ factId ++
    "\",\"wiki_id\":\"casa\"\x7d],\"fires_at\":\"2026-07-04T15:00:00Z\",".toList ++
    "\"recipient_id\":\"".toList ++ recipient ++ "\"\x7d".toList

/-- The text at a path. -/
def strAt (path : Json.Path) (json : Json) : Str :=
  match Json.get path json with
  | some (.str text) => text
  | _ => []

/-- The libraries, at the inputs of the example. -/
def partyOutside (rows : List FactRow) : Outside :=
  let read (text : Str) : Option Json :=
    rows.findSome? fun row => partyPeople.findSome? fun recipient =>
      if text = partyPayload row.factId.val row.text recipient then
        some (payload partyChrono (partyReminder row) recipient)
      else none
  { chrono := partyChrono
    toRfc3339 := fun t =>
      if t < partyTime then "2025-07-04T15:00:00+00:00".toList
      else "2026-07-04T15:00:00+00:00".toList
    write := fun json =>
      partyPayload (strAt [.key "facts".toList, .index 0, .key "fact_id".toList] json)
        (strAt [.key "facts".toList, .index 0, .key "body".toList] json)
        (strAt [.key "recipient_id".toList] json)
    readers := ⟨read, read⟩ }

/-- The payloads of the plans of the example are read back. -/
lemma readsBack_partyOutside {rows : List FactRow} {m : Memory} {policy : ReminderPolicy}
    (hrows : ∀ row ∈ m.facts,
      peopleToRing m row = partyPeople ∧ ∀ recipient ∈ partyPeople,
        Events.recipientOf (partyOutside rows).readers
          (some (partyPayload row.factId.val row.text recipient)) = .text recipient) :
    ReadsBack (partyOutside rows) m policy := by
  intro row hrow now r hr recipient hrecipient
  obtain ⟨hpeople, hreads⟩ := hrows row hrow
  obtain ⟨-, hfact, -, hpeople', hbody, -⟩ := dueReminder_eq_some_iff.mp hr
  have hwritten : (partyOutside rows).write
      (payload (partyOutside rows).chrono r recipient) =
        partyPayload row.factId.val row.text recipient := by
    rw [← hfact, ← hbody]
    rfl
  rw [hwritten]
  exact hreads recipient (hpeople ▸ hpeople' ▸ hrecipient)

/-- The plan, and the group of the parents. -/
def partyMemory : Memory where
  facts := ⟨[partyFact], by decide⟩
  decoded := by decide
  roster := ⟨[⟨"parents".toList, ["anna".toList, "bruno".toList]⟩], by decide⟩
  users := ⟨[⟨"anna".toList, false, false⟩, ⟨"bruno".toList, false, false⟩], by decide⟩

/-- A queue with nothing in it. -/
def noEvents : EventTable := .empty EventRow.id

lemma readsBack_party : ReadsBack (partyOutside [partyFact]) partyMemory {} := by
  refine readsBack_partyOutside ?_
  intro row hrow
  obtain rfl : row = partyFact := List.mem_singleton.mp hrow
  decide +kernel

/-- The notice of the party reaches the person it is kept from. -/
theorem party_told_to_bruno : ¬ ∀ (out : Outside) (m : Memory) (policy : ReminderPolicy)
    (now clock : ℤ) (queue : EventTable), ReadsBack out m policy →
      RingsReaders out m policy now clock queue := by
  intro h
  have hsent : (⟨partyReminder partyFact, "user:bruno".toList, partyTime⟩ : Notice) ∈
      sentBy (partyOutside [partyFact]) partyMemory {} partyTime partyTime noEvents := by
    decide +kernel
  obtain ⟨row, hrow, -, -, userId, hwire, hreads⟩ :=
    h _ _ _ _ _ _ readsBack_party _ hsent
  obtain rfl : row = partyFact := List.mem_singleton.mp hrow
  have hbruno : (Principal.user "bruno".toList).display = (Principal.user userId).display := hwire
  obtain rfl := Principal.user.inj (Principal.display_injective hbruno)
  exact absurd hreads (by decide +kernel)

/-- The sweep that announces the party. -/
theorem party_rings_readers_iff : ReadsBack (partyOutside [partyFact]) partyMemory {} ∧
    (RingsReaders (partyOutside [partyFact]) partyMemory {} partyTime partyTime noEvents ↔
      ∀ row, Announced (partyOutside [partyFact]) partyMemory {} partyTime row →
        ∀ userId, Concerns partyMemory row userId →
          ¬ Rung (partyOutside [partyFact]) noEvents partyTime row.factId.val
              (Principal.user userId).display →
            ¬ KeptFrom partyMemory row userId) :=
  ⟨readsBack_party, rings_readers_iff _ _ _ _ _ _ readsBack_party⟩

end Reminders

end Mwe
