import MweCore.Capture.Fold
import MweCore.Gdpr.Forget

/-!
# Who is asked before a fact is forgotten

Somebody a fact is about may ask that it be forgotten.  `audience` lists the people to put the
question to: it expands the granting principals into people, and subtracts whoever the fact is kept
from.  `openForgetRequest` forgets the fact at once when nobody else is on that list, and opens a
vote of theirs otherwise.

The read check goes the other way, from one reader to the principals of the fact.
`asks_every_reader_iff` says when the two agree: `global` among the exclusions closes a fact to
every reader, and takes nobody off the list.
-/

namespace Mwe.Votes

open Capture
open Gdpr (removedSender)

/-! ## The electorate -/

/-- Whether a principal is the author of what a person who is gone has said. -/
def isRemoved (p : Principal) : Bool := decide (p = removedSender)

/-- The people a granting principal puts on the list; `global` is nobody finite. -/
def electors (groups : List EnrollmentGroup) (p : Principal) : List Str :=
  if isRemoved p then []
  else match p with
    | .user id => [id]
    | .group id => if id = "global".toList then [] else membersFor groups id

/-- The people an excluded principal takes off the list. -/
def keptOut (groups : List EnrollmentGroup) : Principal → List Str
  | .user id => [id]
  | .group id => membersFor groups id

/-- The read audience of a fact as a sorted list of people, each once. -/
def audience (groups : List EnrollmentGroup) (subject : Principal) (allow : List Principal)
    (sender : Option Principal) (excluded : List Principal) : List Str :=
  let users := (subject :: allow ++ sender.toList).flatMap (electors groups)
  let kept := users.filter fun u => u ∉ excluded.flatMap (keptOut groups)
  kept.dedup.insertionSort fun a b => a ≤ b

/-! ## The request -/

/-- How long a vote stays open, in seconds. -/
def voteWindow : ℤ := 7 * 24 * 60 * 60

/-- A pending vote on a fact. -/
structure ForgetVote where
  proposalId : Str
  factId : FactId
  requester : Str
  eligibleVoters : List Str
  timeoutAt : ℤ
  recipientId : Option Str

/-- The facts and the votes on them. -/
structure Forum where
  facts : FactTable
  votes : List ForgetVote

/-- What a request came to. -/
inductive ForgetRequest
  | voteOpened (proposalId : Str) (factId : FactId) (eligibleVoters : List Str) (deadline : ℤ)
  | appliedImmediately (factId : FactId)

/-- Why a request is refused. -/
inductive ForgetRequestError
  | factNotFound (factId : FactId)
  | alreadyForgotten (factId : FactId)
  | senderActsDirectly (factId : FactId) (requester : Str)
  | notAuthorized (factId : FactId) (requester : Str)

/-- Whether the requester is the subject of a fact, or of the group that is. -/
def subjectAuthorizes (groups : List EnrollmentGroup) (subject : Principal) (requester : Str) :
    Bool :=
  match subject with
  | .user id => id == requester
  | .group id =>
    if id = "global".toList then false else (membersFor groups id).any fun m => m == requester

/-- Why a fact is tombstoned that nobody else reads. -/
def soleReaderReason : Str := "fact_forget_sole_reader".toList

/-- Open a request to forget a fact. -/
def openForgetRequest (groups : List EnrollmentGroup) (forum : Forum) (factId : FactId)
    (requester : Str) (isAdmin : Bool) (minted : Str) (now : ℤ) (nowText : Str) :
    Except ForgetRequestError (ForgetRequest × Forum) :=
  match forum.facts.get? factId with
  | none => .error (.factNotFound factId)
  | some row =>
    if row.deletedAt.isSome then .error (.alreadyForgotten factId)
    else if row.senderId = some (.user requester) then
      .error (.senderActsDirectly factId requester)
    else if !isAdmin && !subjectAuthorizes groups row.subjectId requester then
      .error (.notAuthorized factId requester)
    else
      let eligible := (audience groups row.subjectId row.allowIds row.senderId
        row.excludedIds).filter fun u => u ≠ requester
      if eligible.isEmpty then
        .ok (.appliedImmediately factId,
          { forum with
            facts := (FactIndex.markForgotten forum.facts factId soleReaderReason nowText).2 })
      else
        .ok (.voteOpened minted factId eligible (now + voteWindow),
          { forum with
            votes := forum.votes ++
              [⟨minted, factId, requester, eligible, now + voteWindow,
                some (Principal.user requester).display⟩] })

/-! ## Who is on the list -/

/-- Everybody enrolled, and the groups they are in. -/
structure Census where
  users : List Str
  enrolled : ∀ u ∈ users, isValidUserId u = true
  roster : Roster

section Electorate

variable {census : Census} {row : FactRow} {u : Str}

/-- The exclusions of a fact that name somebody. -/
def namedExclusions (row : FactRow) : List Principal :=
  row.excludedIds.filter fun p => p ≠ Principal.global

/-- Whether a person reads a fact as far as the exclusions that name somebody go. -/
def Reached (roster : Roster) (row : FactRow) (u : Str) : Prop :=
  Readable roster { row.acl with excluded := namedExclusions row } u

/-- Whether a person stands in the row of `global` as a member, where nobody is put. -/
def ListedInGlobal (roster : Roster) (u : Str) : Prop :=
  "global".toList ∈ groupsFor roster.groups u

/-- The principals that grant the reading of a fact. -/
def granting (row : FactRow) : List Principal := row.subjectId :: row.allowIds ++ row.senderId.toList

lemma user_mem_heldBy_iff {roster : Roster} {id : Str} :
    .user id ∈ HeldBy roster u ↔ u = id := by
  simp [HeldBy, Holds, Principal.global, eq_comm]

lemma global_mem_heldBy (roster : Roster) (u : Str) : Principal.global ∈ HeldBy roster u :=
  .inl rfl

/-- A person who is gone is in no group. -/
lemma ne_removed_of_mem_membersFor {roster : Roster} {id : Str}
    (h : u ∈ membersFor roster.groups id) : u ≠ "_removed".toList := by
  rintro rfl
  have hmember : ∃ g ∈ roster.groups, "_removed".toList ∈ g.members := by
    unfold membersFor at h
    split_ifs at h with hempty
    · cases h
    · obtain ⟨g, hg, hmem⟩ := List.mem_flatMap.mp ((List.mem_insertionSort _).mp h)
      exact ⟨g, (List.mem_filter.mp hg).1, hmem⟩
  obtain ⟨g, hg, hmem⟩ := hmember
  have hvalid := (roster.valid g hg).2 _ hmem
  revert hvalid
  decide

/-- A granting principal other than `global` puts on the list whoever answers to it. -/
lemma mem_electors_iff {roster : Roster} {p : Principal} (hp : p ≠ Principal.global) :
    u ∈ electors roster.groups p ↔ u ≠ "_removed".toList ∧ p ∈ HeldBy roster u := by
  unfold electors
  cases p with
  | user id =>
    rw [user_mem_heldBy_iff]
    by_cases hid : id = "_removed".toList
    · have hgone : isRemoved (.user id) = true := by simp [isRemoved, removedSender, hid]
      rw [if_pos hgone, hid]
      simp only [List.not_mem_nil, false_iff, not_and]
      exact fun h hu => absurd hu h
    · have hgone : ¬ isRemoved (.user id) = true := by simpa [isRemoved, removedSender] using hid
      rw [if_neg hgone, List.mem_singleton]
      constructor
      · rintro rfl
        exact ⟨hid, rfl⟩
      · exact fun h => h.2
  | group id =>
    have hgone : ¬ isRemoved (.group id) = true := by simp [isRemoved, removedSender]
    have hid : id ≠ "global".toList := fun h => hp (by rw [h]; rfl)
    rw [if_neg hgone]
    simp only [if_neg hid]
    rw [group_mem_heldBy_iff hid, ← roster.mem_membersFor_iff]
    exact ⟨fun h => ⟨ne_removed_of_mem_membersFor h, h⟩, fun h => h.2⟩

/-- An excluded principal takes off the list whoever answers to it, `global` the members in its
row. -/
lemma mem_keptOut_iff {roster : Roster} {p : Principal} :
    u ∈ keptOut roster.groups p ↔
      if p = Principal.global then ListedInGlobal roster u else p ∈ HeldBy roster u := by
  split_ifs with hp
  · subst hp
    exact roster.mem_membersFor_iff
  · cases p with
    | user id =>
      rw [user_mem_heldBy_iff]
      exact List.mem_singleton
    | group id =>
      have hid : id ≠ "global".toList := fun h => hp (by rw [h]; rfl)
      rw [group_mem_heldBy_iff hid]
      exact roster.mem_membersFor_iff

lemma reached_iff {roster : Roster} :
    Reached roster row u ↔
      ¬ Reaches roster (namedExclusions row) u ∧ Reaches roster (granting row) u := by
  unfold Reached
  rw [readable_iff]
  refine and_congr_right fun _ => ?_
  have hsplit : Reaches roster (granting row) u ↔
      Reaches roster (row.subjectId :: row.allowIds) u ∨ Reaches roster row.senderId.toList u := by
    simp only [Reaches, granting, List.mem_append, or_and_right, exists_or]
  exact hsplit.symm

/-- The read check, taken apart: `global` among the exclusions closes a fact to everybody. -/
lemma readable_iff_reached {roster : Roster} :
    Readable roster row.acl u ↔ Reached roster row u ∧ Principal.global ∉ row.excludedIds := by
  have hsplit : Reaches roster row.excludedIds u ↔
      Reaches roster (namedExclusions row) u ∨ Principal.global ∈ row.excludedIds := by
    constructor
    · rintro ⟨p, hp, hheld⟩
      by_cases hglobal : p = Principal.global
      · exact .inr (hglobal ▸ hp)
      · exact .inl ⟨p, List.mem_filter.mpr ⟨hp, by simpa using hglobal⟩, hheld⟩
    · rintro (⟨p, hp, hheld⟩ | h)
      · exact ⟨p, (List.mem_filter.mp hp).1, hheld⟩
      · exact ⟨_, h, global_mem_heldBy roster u⟩
  have hreadable : Readable roster row.acl u ↔ ¬ Reaches roster row.excludedIds u ∧
      (Reaches roster (row.subjectId :: row.allowIds) u ∨
        Reaches roster row.senderId.toList u) := readable_iff
  have hreached : Reached roster row u ↔ ¬ Reaches roster (namedExclusions row) u ∧
      (Reaches roster (row.subjectId :: row.allowIds) u ∨
        Reaches roster row.senderId.toList u) := readable_iff
  rw [hreadable, hreached]
  rw [hsplit]
  tauto

/-- Who the list of a fact names, when `global` is not what opens it. -/
lemma mem_audience_iff (roster : Roster) (hglobal : ∀ p ∈ granting row, p ≠ Principal.global) :
    u ∈ audience roster.groups row.subjectId row.allowIds row.senderId row.excludedIds ↔
      u ≠ "_removed".toList ∧ Reached roster row u ∧
        (Principal.global ∈ row.excludedIds → ¬ ListedInGlobal roster u) := by
  have hgranted : u ∈ (granting row).flatMap (electors roster.groups) ↔
      u ≠ "_removed".toList ∧ Reaches roster (granting row) u := by
    rw [List.mem_flatMap]
    constructor
    · rintro ⟨p, hp, hu⟩
      obtain ⟨hne, hheld⟩ := (mem_electors_iff (hglobal p hp)).mp hu
      exact ⟨hne, p, hp, hheld⟩
    · rintro ⟨hne, p, hp, hheld⟩
      exact ⟨p, hp, (mem_electors_iff (hglobal p hp)).mpr ⟨hne, hheld⟩⟩
  have hkept : u ∈ row.excludedIds.flatMap (keptOut roster.groups) ↔
      Reaches roster (namedExclusions row) u ∨
        Principal.global ∈ row.excludedIds ∧ ListedInGlobal roster u := by
    simp only [List.mem_flatMap, mem_keptOut_iff]
    constructor
    · rintro ⟨p, hp, hu⟩
      split_ifs at hu with hg
      · exact .inr ⟨hg ▸ hp, hu⟩
      · exact .inl ⟨p, List.mem_filter.mpr ⟨hp, by simpa using hg⟩, hu⟩
    · rintro (⟨p, hp, hu⟩ | ⟨hp, hu⟩)
      · obtain ⟨hp, hg⟩ := List.mem_filter.mp hp
        exact ⟨p, hp, by rwa [if_neg (by simpa using hg)]⟩
      · exact ⟨_, hp, by rwa [if_pos rfl]⟩
  have hlist : u ∈ audience roster.groups row.subjectId row.allowIds row.senderId
      row.excludedIds ↔ u ∈ (granting row).flatMap (electors roster.groups) ∧
        u ∉ row.excludedIds.flatMap (keptOut roster.groups) := by
    simp only [audience, granting, List.mem_insertionSort, List.mem_dedup, List.mem_filter,
      decide_eq_true_eq]
  rw [hlist, hgranted, hkept, reached_iff]
  tauto

/-! ## What a request comes to -/

/-- Whether a request passes the refusals. -/
def Admitted (groups : List EnrollmentGroup) (row : FactRow) (requester : Str) (isAdmin : Bool) :
    Prop :=
  row.deletedAt = none ∧ row.senderId ≠ some (.user requester) ∧
    (isAdmin = true ∨ subjectAuthorizes groups row.subjectId requester = true)

/-- The people a request puts the question to. -/
def voters (groups : List EnrollmentGroup) (row : FactRow) (requester : Str) : List Str :=
  (audience groups row.subjectId row.allowIds row.senderId row.excludedIds).filter
    fun u => u ≠ requester

/-- What a request that is not refused comes to. -/
lemma openForgetRequest_eq_ok_iff {groups : List EnrollmentGroup} {forum forum' : Forum}
    {factId : FactId} {requester minted nowText : Str} {isAdmin : Bool} {now : ℤ}
    {result : ForgetRequest} (hrow : forum.facts.get? factId = some row) :
    openForgetRequest groups forum factId requester isAdmin minted now nowText =
        .ok (result, forum') ↔
      Admitted groups row requester isAdmin ∧
        if voters groups row requester = [] then
          result = .appliedImmediately factId ∧ forum' = { forum with
            facts := (FactIndex.markForgotten forum.facts factId soleReaderReason nowText).2 }
        else
          result = .voteOpened minted factId (voters groups row requester) (now + voteWindow) ∧
            forum' = { forum with
              votes := forum.votes ++ [⟨minted, factId, requester, voters groups row requester,
                now + voteWindow, some (Principal.user requester).display⟩] } := by
  unfold openForgetRequest Admitted
  rw [hrow]
  simp only
  by_cases hdeleted : row.deletedAt.isSome = true
  · rw [if_pos hdeleted]
    have hnot : row.deletedAt ≠ none := Option.isSome_iff_ne_none.mp hdeleted
    simp [hnot]
  have hlive : row.deletedAt = none := by simpa using hdeleted
  rw [if_neg hdeleted]
  by_cases hsender : row.senderId = some (.user requester)
  · simp [hsender]
  rw [if_neg hsender]
  by_cases hrefused : (!isAdmin && !subjectAuthorizes groups row.subjectId requester) = true
  · rw [if_pos hrefused]
    have hrefused' : isAdmin = false ∧ subjectAuthorizes groups row.subjectId requester = false := by
      simpa using hrefused
    simp [hrefused'.1, hrefused'.2]
  rw [if_neg hrefused]
  have hadmitted : isAdmin = true ∨ subjectAuthorizes groups row.subjectId requester = true := by
    cases hadmin : isAdmin
    · exact .inr (by simpa [hadmin] using hrefused)
    · exact .inl rfl
  rw [and_iff_right ⟨hlive, hsender, hadmitted⟩]
  change (if (voters groups row requester).isEmpty = true then _ else _) = _ ↔ _
  by_cases hempty : voters groups row requester = []
  · rw [if_pos (List.isEmpty_iff.mpr hempty), if_pos hempty, Except.ok.injEq, Prod.mk.injEq]
    exact and_congr eq_comm eq_comm
  · rw [if_neg (fun h => hempty (List.isEmpty_iff.mp h)), if_neg hempty, Except.ok.injEq,
      Prod.mk.injEq]
    exact and_congr eq_comm eq_comm

/-! ## Nobody who can read a fact is skipped -/

/-- The list of a fact names an enrolled person exactly if the read check admits them. -/
def AudienceExact (census : Census) (row : FactRow) : Prop :=
  ∀ u ∈ census.users,
    u ∈ audience census.roster.groups row.subjectId row.allowIds row.senderId row.excludedIds ↔
      canRead row.acl.toAcl u (groupsFor census.roster.groups u) row.senderId = true

/-- An enrolled person other than the requester whom the read check admits. -/
def OtherReader (census : Census) (row : FactRow) (requester u : Str) : Prop :=
  u ∈ census.users ∧ u ≠ requester ∧
    canRead row.acl.toAcl u (groupsFor census.roster.groups u) row.senderId = true

/-- A request asks every reader: it forgets at once only what nobody else reads, and otherwise
leaves the fact as it is and opens a vote of exactly the other readers. -/
def AsksEveryReader (census : Census) (row : FactRow) (requester : Str) (forum forum' : Forum) :
    ForgetRequest → Prop
  | .appliedImmediately _ =>
    forum'.votes = forum.votes ∧ ∀ u, ¬ OtherReader census row requester u
  | .voteOpened _ _ eligible _ =>
    forum'.facts = forum.facts ∧
      (∃ vote, forum'.votes = forum.votes ++ [vote] ∧ vote.factId = row.factId ∧
        vote.requester = requester ∧ vote.eligibleVoters = eligible) ∧
      ∀ u, u ∈ eligible ↔ OtherReader census row requester u

/-- Whether the exclusions of a fact that name somebody already keep it from everybody, should it
be kept from `global`. -/
def ClosedByName (census : Census) (row : FactRow) : Prop :=
  Principal.global ∈ row.excludedIds →
    ∀ u ∈ census.users, Reached census.roster row u → ListedInGlobal census.roster u

/-- Whether everybody the fact reaches by name is enrolled, the requester apart. -/
def EverybodyEnrolled (census : Census) (row : FactRow) (requester : Str) : Prop :=
  ∀ u, u ≠ requester → u ≠ "_removed".toList → Reached census.roster row u →
    (Principal.global ∈ row.excludedIds → ¬ ListedInGlobal census.roster u) → u ∈ census.users

lemma ne_removed_of_mem_users (h : u ∈ census.users) : u ≠ "_removed".toList := by
  rintro rfl
  have hvalid := census.enrolled _ h
  revert hvalid
  decide

lemma audienceExact_iff (hglobal : ∀ p ∈ granting row, p ≠ Principal.global) :
    AudienceExact census row ↔ ClosedByName census row := by
  have hread : ∀ u, canRead row.acl.toAcl u (groupsFor census.roster.groups u) row.senderId = true ↔
      Reached census.roster row u ∧ Principal.global ∉ row.excludedIds :=
    fun u => readable_iff_reached
  unfold AudienceExact ClosedByName
  simp only [hread, mem_audience_iff census.roster hglobal]
  constructor
  · intro hexact hkept u hu hreached
    by_contra hlisted
    have hu' := (hexact u hu).mp ⟨ne_removed_of_mem_users hu, hreached, fun _ => hlisted⟩
    exact hu'.2 hkept
  · intro hclosed u hu
    constructor
    · rintro ⟨-, hreached, hlisted⟩
      exact ⟨hreached, fun hkept => hlisted hkept (hclosed hkept u hu hreached)⟩
    · rintro ⟨hreached, hopen⟩
      exact ⟨ne_removed_of_mem_users hu, hreached, fun hkept => absurd hkept hopen⟩

/-- Over a list that is exact, the people a request puts the question to are the other readers as
soon as they are all enrolled. -/
lemma mem_voters_iff {requester : Str} (hglobal : ∀ p ∈ granting row, p ≠ Principal.global) :
    u ∈ voters census.roster.groups row requester ↔ u ≠ requester ∧ u ≠ "_removed".toList ∧
      Reached census.roster row u ∧
        (Principal.global ∈ row.excludedIds → ¬ ListedInGlobal census.roster u) := by
  unfold voters
  rw [List.mem_filter, mem_audience_iff census.roster hglobal, decide_eq_true_eq]
  tauto

lemma otherReader_iff {requester : Str} (hexact : AudienceExact census row) :
    OtherReader census row requester u ↔
      u ∈ census.users ∧ u ∈ voters census.roster.groups row requester := by
  unfold OtherReader voters
  rw [List.mem_filter, decide_eq_true_eq]
  constructor
  · rintro ⟨hu, hne, hread⟩
    exact ⟨hu, (hexact u hu).mpr hread, hne⟩
  · rintro ⟨hu, hlist, hne⟩
    exact ⟨hu, hne, (hexact u hu).mp hlist⟩

lemma everybodyEnrolled_iff {requester : Str} (hglobal : ∀ p ∈ granting row, p ≠ Principal.global) :
    EverybodyEnrolled census row requester ↔
      ∀ u ∈ voters census.roster.groups row requester, u ∈ census.users := by
  simp only [mem_voters_iff hglobal, EverybodyEnrolled, and_imp]

/-- The list of a fact is exact and a request about it asks every other reader exactly when
`global` is not among the exclusions, or keeps out nobody the other exclusions let in, and
everybody a request that is not refused would reach by name is enrolled. -/
theorem asks_every_reader_iff (census : Census) (forum : Forum) (factId : FactId) (row : FactRow)
    (requester : Str) (isAdmin : Bool) (minted : Str) (now : ℤ) (nowText : Str)
    (hrow : forum.facts.get? factId = some row)
    (hglobal : ∀ p ∈ row.subjectId :: row.allowIds ++ row.senderId.toList, p ≠ Principal.global) :
    (AudienceExact census row ∧ ∀ result forum',
        openForgetRequest census.roster.groups forum factId requester isAdmin minted now nowText =
          .ok (result, forum') → AsksEveryReader census row requester forum forum' result) ↔
      ClosedByName census row ∧ (Admitted census.roster.groups row requester isAdmin →
        EverybodyEnrolled census row requester) := by
  rw [audienceExact_iff hglobal]
  refine and_congr_right fun hclosed => ?_
  have hexact := (audienceExact_iff hglobal).mpr hclosed
  rw [everybodyEnrolled_iff hglobal]
  constructor
  · intro hasks hadmitted u hu
    have hne : voters census.roster.groups row requester ≠ [] := List.ne_nil_of_mem hu
    have hopened := hasks _ _ ((openForgetRequest_eq_ok_iff hrow).mpr
      ⟨hadmitted, by rw [if_neg hne]; exact ⟨rfl, rfl⟩⟩)
    exact ((hopened.2.2 u).mp hu).1
  · intro hall result forum' hok
    obtain ⟨hadmitted, hresult⟩ := (openForgetRequest_eq_ok_iff hrow).mp hok
    split_ifs at hresult with hempty
    · obtain ⟨rfl, rfl⟩ := hresult
      refine ⟨rfl, ?_⟩
      intro u hu
      have hvoter := ((otherReader_iff hexact).mp hu).2
      rw [hempty] at hvoter
      cases hvoter
    · obtain ⟨rfl, rfl⟩ := hresult
      have hid : row.factId = factId := (Sql.Table.get?_eq_some_iff.mp hrow).2
      refine ⟨rfl, ⟨_, rfl, hid.symm, rfl, rfl⟩, ?_⟩
      intro u
      rw [otherReader_iff hexact]
      exact ⟨fun hu => ⟨hall hadmitted u hu, hu⟩, fun hu => hu.2⟩

end Electorate

/-! ## A household -/

/-- Alice, Bob and Carol, who are parents. -/
def parents : Census where
  users := ["alice".toList, "bob".toList, "carol".toList]
  enrolled := by decide
  roster := household

/-- A fact about Alice that Bob told the parents, kept from some. -/
def toldByBob (excluded : List Principal) : FactRow :=
  { FactIndex.halfPast with
    allowIds := [.group "parents".toList]
    excludedIds := excluded
    senderId := some (.user "bob".toList) }.row []

/-- The index with that fact. -/
def toldForum (excluded : List Principal) : Forum where
  facts := Sql.Table.insertIfAbsent (Sql.Table.empty _) (toldByBob excluded)
  votes := []

/-- Kept from Carol, the fact is put to Bob alone. -/
theorem parents_asks_every_reader :
    AudienceExact parents (toldByBob [.user "carol".toList]) ∧ ∀ result forum',
      openForgetRequest parents.roster.groups (toldForum [.user "carol".toList])
          (toldByBob []).factId "alice".toList false "p".toList 0 [] = .ok (result, forum') →
        AsksEveryReader parents (toldByBob [.user "carol".toList]) "alice".toList
          (toldForum [.user "carol".toList]) forum' result := by
  have hglobal : ∀ p ∈ granting (toldByBob [.user "carol".toList]), p ≠ Principal.global := by
    decide
  refine (asks_every_reader_iff parents (toldForum [.user "carol".toList]) _ _ _ _ _ _ _ rfl
    hglobal).mpr ⟨?_, ?_⟩
  · intro h
    exact absurd h (by decide)
  · intro _
    rw [everybodyEnrolled_iff hglobal]
    decide +kernel

/-- Kept from `global`, the fact is read by nobody and still put to the parents. -/
theorem parents_asked_about_closed :
    (∀ p ∈ granting (toldByBob [.global]), p ≠ Principal.global) ∧
      (toldByBob [.global]).senderId ≠ some removedSender ∧
      ¬ AudienceExact parents (toldByBob [.global]) := by
  refine ⟨by decide, by decide, ?_⟩
  intro hexact
  have hcarol := hexact "carol".toList (by decide)
  revert hcarol
  decide +kernel

end Mwe.Votes
