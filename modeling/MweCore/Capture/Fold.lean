import MweCore.Enrollment
import MweCore.FactIndex.Access

/-!
# A claim folds into a stored fact

A claim that repeats a stored fact can change who reads it.  The turn and the hourly round fold a
claim that is kept from somebody into the fact it repeats when both are for the same people; the
round also folds one that was said to a different room, and the fact is then for both rooms.

An audience is written with groups, or with the people who were in them when somebody was kept
out.  `fold_readers_exact` compares the readers before and after by who they are.
-/

namespace Mwe

open Str

/-! ## Channel pages -/

/-- The last component of a path. -/
def fileName (path : Str) : Option Str :=
  ((path.splitOn '/').filter fun c => !c.isEmpty && c ≠ ".".toList).getLast?.filter
    fun c => c ≠ "..".toList

/-- Whether the last component of a path is a name, or the name without its mark. -/
def namesPage (sourcePath name : Str) : Bool :=
  match fileName sourcePath with
  | none => false
  | some last => last == name ||
    match name with
    | '@' :: bare => last == bare
    | _ => false

/-- Whether a page is one of the reserved channels. -/
def isChannelPage (sourcePath : Str) : Bool :=
  namesPage sourcePath "@rules.md".toList ||
    (namesPage sourcePath "@projects.md".toList ||
      namesPage sourcePath "@projects_diary.md".toList)

namespace Capture

/-- The channel page a claim is headed for. -/
structure ChannelScope where
  wikiId : Str
  page : Str

/-- Whether a row is on this very channel page. -/
def ChannelScope.holds (scope : ChannelScope) (row : FactRow) : Bool :=
  row.wikiId == scope.wikiId && namesPage row.sourcePath scope.page

/-! ## Audiences -/

/-- Who may read a claim. -/
structure Audience where
  subject : Principal
  allow : List Principal
  excluded : List Principal
  sender : Option Principal

/-- The access record of a claim. -/
def Audience.acl (a : Audience) : RegionAcl where
  subject := a.subject
  allow := a.allow
  excluded := a.excluded
  sender := a.sender

/-- Whether a claim is kept from everybody a row is kept from, and from one more. -/
def Audience.restricts (a : Audience) (row : FactRow) : Bool :=
  decide (row.subjectId = a.subject) && decide (row.senderId = a.sender) &&
    row.excludedIds.all (fun p => a.excluded.contains p) &&
      a.excluded.any fun p => !row.excludedIds.contains p

/-- The members of the groups that are named, as they are today. -/
def rosterOf (roster : Roster) (named : List Principal) : List (Str × List Str) :=
  named.filterMap fun
    | .group id => some (id, membersFor roster.groups id)
    | .user _ => none

/-- The people a principal of an audience stands for. -/
def todaysPeople (members : List (Str × List Str)) : Principal → List Principal
  | .group id =>
    if id = "global".toList then [] else ((members.lookup id).getD []).map Principal.user
  | .user id => [.user id]

/-- One more reader, unless kept out or there already. -/
def keep (excluded out : List Principal) (p : Principal) : List Principal :=
  if !excluded.contains p && !out.contains p then out ++ [p] else out

/-- The audience a fact is written with, once somebody is kept from it. -/
def audienceWithoutTheExcluded (allow excluded : List Principal)
    (members : List (Str × List Str)) : List Principal × List Principal :=
  if excluded.isEmpty then (allow, excluded)
  else (allow.foldl (fun out p => (todaysPeople members p).foldl (keep excluded) out) [], excluded)

/-- The list with what it lacks of another. -/
def union (xs ys : List Principal) : List Principal :=
  ys.foldl (fun out p => if out.contains p then out else out ++ [p]) xs

/-- The readers of a row by name, when they are the claim's. -/
def theSameReadersOnceFrozen (roster : Roster) (row : FactRow) (audience : Audience) :
    Option (List Principal) :=
  let members := rosterOf roster (row.allowIds ++ audience.allow)
  let frozen := (audienceWithoutTheExcluded row.allowIds audience.excluded members).1
  let claim := (audienceWithoutTheExcluded audience.allow audience.excluded members).1
  if readerSet row.subjectId frozen none [] = readerSet audience.subject claim none [] then
    some frozen
  else none

/-- The audience a fact is about to be written with, and who it is kept from. -/
structure Settled where
  readers : List Principal
  excluded : List Principal

/-- What a claim settles about who may read a row; `none` when it settles nothing. -/
def theAudienceOnceSettled (roster : Roster) (row : FactRow) (audience : Audience) :
    Option Settled :=
  let excluded := union row.excludedIds audience.excluded
  let allow := union row.allowIds audience.allow
  let (readers, excluded) := audienceWithoutTheExcluded allow excluded (rosterOf roster allow)
  if readerSet row.subjectId readers none excluded =
      readerSet row.subjectId row.allowIds none row.excludedIds then none
  else some { readers, excluded }

/-! ## The two folds -/

section Folds

variable {S : Type*} [LinearOrder S] (score : Str → Str → S)

/-- The row whose words are nearest, the first of them. -/
def closestByWords (candidates : List FactRow) (channel : Option ChannelScope) (body : Str) :
    Option (FactRow × S) :=
  candidates.foldl (fun best row =>
    let sameChannel := match channel with
      | none => !isChannelPage row.sourcePath
      | some scope => scope.holds row
    if !sameChannel then best
    else match best with
      | none => some (row, score body row.text)
      | some (_, s) => if s < score body row.text then some (row, score body row.text) else best)
    none

/-- Put the exclusion on the fact that is already there, and fold into it. -/
def applyExclusionToTheFactAlreadyThere (roster : Roster) (facts : FactTable)
    (candidates : List FactRow) (audience : Audience) (channel : Option ChannelScope)
    (body : Str) (speaker : Principal) (threshold : S) (now : Str) :
    Option (FactRow × S) × FactTable :=
  if audience.excluded.isEmpty then (none, facts)
  else match speaker with
  | .group _ => (none, facts)
  | .user speakerId =>
    let narrowing := candidates.filter audience.restricts
    let eligible := narrowing.filterMap fun row =>
      (theSameReadersOnceFrozen roster row audience).map fun readers => (row, readers)
    match closestByWords score (eligible.map Prod.fst) channel body with
    | none => (none, facts)
    | some (row, similarity) =>
      if similarity < threshold then (none, facts)
      else if !senderMayRewrite row.subjectId row.senderId speakerId [] then (none, facts)
      else match eligible.find? fun e => e.1.factId == row.factId with
      | none => (none, facts)
      | some (row, readers) =>
        match FactIndex.restrictTo facts row.factId audience.excluded readers now with
        | (none, facts) => (none, facts)
        | (some _, facts) => (some (row, similarity), facts)

/-- Settle who reads the fact a claim repeats, and fold into it. -/
def carryTheNewAudienceOntoTheFactItFoldsInto (roster : Roster) (facts : FactTable)
    (candidates : List FactRow) (audience : Audience) (channel : Option ChannelScope)
    (body : Str) (speaker : Principal) (threshold : S) (now : Str) :
    Option (FactRow × S) × FactTable :=
  match speaker with
  | .group _ => (none, facts)
  | .user speakerId =>
    let sameClaim := candidates.filter fun row =>
      decide (row.subjectId = audience.subject) && decide (row.senderId = audience.sender)
    match closestByWords score sameClaim channel body with
    | none => (none, facts)
    | some (row, similarity) =>
      if similarity < threshold then (none, facts)
      else match theAudienceOnceSettled roster row audience with
      | none => (none, facts)
      | some settled =>
        if !senderMayRewrite row.subjectId row.senderId speakerId [] then (none, facts)
        else match FactIndex.restrictTo facts row.factId settled.excluded settled.readers now with
        | (none, facts) => (none, facts)
        | (some _, facts) => (some (row, similarity), facts)

end Folds

/-! ## Who is in an audience -/

/-- A person answers to their name, to their groups and to `global`. -/
def HeldBy (roster : Roster) (u : Str) : Set Principal := Holds u (groupsFor roster.groups u)

/-- Whether one of the principals is the person or a group of theirs. -/
def Reaches (roster : Roster) (ps : List Principal) (u : Str) : Prop :=
  ∃ p ∈ ps, p ∈ HeldBy roster u

lemma mem_union {xs ys : List Principal} {p : Principal} :
    p ∈ union xs ys ↔ p ∈ xs ∨ p ∈ ys := by
  unfold union
  induction ys generalizing xs with
  | nil => simp
  | cons y ys ih =>
    rw [List.foldl_cons, ih, List.mem_cons]
    split_ifs with hy
    · have hy' : y ∈ xs := List.contains_iff_mem.mp hy
      constructor
      · rintro (h | h)
        · exact .inl h
        · exact .inr (.inr h)
      · rintro (h | rfl | h)
        · exact .inl h
        · exact .inl hy'
        · exact .inr h
    · simp [or_assoc]

lemma reaches_union {roster : Roster} {xs ys : List Principal} {u : Str} :
    Reaches roster (union xs ys) u ↔ Reaches roster xs u ∨ Reaches roster ys u := by
  simp only [Reaches, mem_union, or_and_right, exists_or]

lemma mem_foldl_keep {excluded ps out : List Principal} {p : Principal} :
    p ∈ ps.foldl (keep excluded) out ↔ p ∈ out ∨ p ∈ ps ∧ p ∉ excluded := by
  induction ps generalizing out with
  | nil => simp
  | cons q ps ih =>
    rw [List.foldl_cons, ih]
    unfold keep
    split_ifs with hq
    · simp only [Bool.and_eq_true, Bool.not_eq_true', List.contains_eq_mem,
        decide_eq_false_iff_not] at hq
      rw [List.mem_append, List.mem_singleton, List.mem_cons]
      constructor
      · rintro ((h | rfl) | h)
        · exact .inl h
        · exact .inr ⟨.inl rfl, hq.1⟩
        · exact .inr ⟨.inr h.1, h.2⟩
      · rintro (h | ⟨rfl | h, hout⟩)
        · exact .inl (.inl h)
        · exact .inl (.inr rfl)
        · exact .inr ⟨h, hout⟩
    · have hq' : q ∈ excluded ∨ q ∈ out := by
        simpa [or_iff_not_imp_left] using hq
      rw [List.mem_cons]
      constructor
      · rintro (h | h)
        · exact .inl h
        · exact .inr ⟨.inr h.1, h.2⟩
      · rintro (h | ⟨rfl | h, hout⟩)
        · exact .inl h
        · exact .inl (hq'.resolve_left hout)
        · exact .inr ⟨h, hout⟩

/-- The readers written in the place of an audience: its people, less whoever is kept out. -/
lemma mem_audienceWithoutTheExcluded {allow excluded : List Principal}
    {members : List (Str × List Str)} (h : excluded ≠ []) {p : Principal} :
    p ∈ (audienceWithoutTheExcluded allow excluded members).1 ↔
      (∃ q ∈ allow, p ∈ todaysPeople members q) ∧ p ∉ excluded := by
  have hfold : ∀ (out : List Principal),
      p ∈ allow.foldl (fun out q => (todaysPeople members q).foldl (keep excluded) out) out ↔
        p ∈ out ∨ (∃ q ∈ allow, p ∈ todaysPeople members q) ∧ p ∉ excluded := by
    induction allow with
    | nil => simp
    | cons q allow ih =>
      intro out
      rw [List.foldl_cons, ih, mem_foldl_keep]
      simp only [List.mem_cons, exists_eq_or_imp]
      tauto
  unfold audienceWithoutTheExcluded
  rw [if_neg (by simpa using h)]
  exact (hfold []).trans (by simp)

lemma lookup_rosterOf (roster : Roster) {named : List Principal} {id : Str}
    (h : .group id ∈ named) :
    (rosterOf roster named).lookup id = some (membersFor roster.groups id) := by
  unfold rosterOf
  induction named with
  | nil => cases h
  | cons p named ih =>
    rcases List.mem_cons.mp h with rfl | hmem
    · simp
    · cases p with
      | user u => simpa using ih hmem
      | group g =>
        simp only [List.filterMap_cons, List.lookup_cons]
        split
        · next heq => rw [beq_iff_eq.mp heq]
        · exact ih hmem

lemma todaysPeople_group {members : List (Str × List Str)} {id : Str} {people : List Str}
    (hid : id ≠ "global".toList) (h : members.lookup id = some people) :
    todaysPeople members (.group id) = people.map Principal.user := by
  rw [todaysPeople, if_neg hid, h, Option.getD_some]

lemma group_mem_heldBy_iff {roster : Roster} {u id : Str} (hid : id ≠ "global".toList) :
    .group id ∈ HeldBy roster u ↔ id ∈ groupsFor roster.groups u := by
  constructor
  · rintro (h | h | ⟨g, hg, h⟩)
    · exact absurd (Principal.group.inj h) hid
    · cases h
    · rwa [Principal.group.inj h]
  · intro h
    exact .inr (.inr ⟨id, h, rfl⟩)

/-- Frozen, an audience without `global` reaches the people it reached, less whoever is kept
out by name. -/
lemma reaches_frozen {roster : Roster} {allow excluded named : List Principal} {u : Str}
    (hexcluded : excluded ≠ []) (hnamed : ∀ p ∈ allow, p ∈ named)
    (hglobal : Principal.global ∉ allow) (hu : .user u ∉ excluded) :
    Reaches roster (audienceWithoutTheExcluded allow excluded (rosterOf roster named)).1 u ↔
      Reaches roster allow u := by
  have hpeople : ∀ q ∈ allow,
      .user u ∈ todaysPeople (rosterOf roster named) q ↔ q ∈ HeldBy roster u := by
    intro q hq
    cases q with
    | user v => simp [todaysPeople, HeldBy, Holds, Principal.global, eq_comm]
    | group g =>
      have hg : g ≠ "global".toList := by
        rintro rfl
        exact hglobal hq
      rw [todaysPeople_group hg (lookup_rosterOf roster (hnamed _ hq)), group_mem_heldBy_iff hg,
        ← roster.mem_membersFor_iff]
      simp
  have honlyPeople : ∀ p q, p ∈ todaysPeople (rosterOf roster named) q → ∃ v, p = .user v := by
    intro p q hp
    cases q with
    | user v => exact ⟨v, List.mem_singleton.mp hp⟩
    | group g =>
      simp only [todaysPeople] at hp
      split_ifs at hp
      · cases hp
      · obtain ⟨v, -, rfl⟩ := List.mem_map.mp hp
        exact ⟨v, rfl⟩
  constructor
  · rintro ⟨p, hp, hheld⟩
    obtain ⟨⟨q, hq, hpq⟩, -⟩ := (mem_audienceWithoutTheExcluded hexcluded).mp hp
    obtain ⟨v, rfl⟩ := honlyPeople p q hpq
    obtain rfl : v = u := by simpa [HeldBy, Holds, Principal.global] using hheld
    exact ⟨q, hq, (hpeople q hq).mp hpq⟩
  · rintro ⟨q, hq, hheld⟩
    refine ⟨.user u, ?_, .inr (.inl rfl)⟩
    exact (mem_audienceWithoutTheExcluded hexcluded).mpr ⟨⟨q, hq, (hpeople q hq).mpr hheld⟩, hu⟩

/-! ## What a fold did -/

section Folds

variable {S : Type*} [LinearOrder S] {score : Str → Str → S}

lemma mem_of_closestByWords {candidates : List FactRow} {channel : Option ChannelScope}
    {body : Str} {row : FactRow} {s : S}
    (h : closestByWords score candidates channel body = some (row, s)) : row ∈ candidates := by
  unfold closestByWords at h
  -- the best so far is a candidate that was passed
  induction candidates using List.reverseRecOn generalizing row s with
  | nil => cases h
  | append_singleton candidates last ih =>
    rw [List.foldl_append, List.foldl_cons, List.foldl_nil] at h
    rw [List.mem_append, List.mem_singleton]
    dsimp only at h
    split_ifs at h with hchannel
    · exact .inl (ih h)
    · split at h
      · exact .inr (Prod.mk.inj (Option.some.inj h)).1.symm
      · next hbest =>
        split_ifs at h
        · exact .inr (Prod.mk.inj (Option.some.inj h)).1.symm
        · exact .inl (ih h)

variable {roster : Roster} {facts facts' : FactTable} {candidates : List FactRow}
  {audience : Audience} {channel : Option ChannelScope} {body now : Str} {speaker : Principal}
  {threshold s : S} {row : FactRow}

/-- An exclusion that is applied is applied to a candidate it restricts, whose readers by name are
the claim's. -/
lemma applyExclusion_cases (h : applyExclusionToTheFactAlreadyThere score roster facts candidates
    audience channel body speaker threshold now = (some (row, s), facts')) :
    row ∈ candidates ∧ audience.excluded ≠ [] ∧ audience.restricts row = true ∧
      ∃ readers prev, theSameReadersOnceFrozen roster row audience = some readers ∧
        FactIndex.restrictTo facts row.factId audience.excluded readers now =
          (some prev, facts') := by
  unfold applyExclusionToTheFactAlreadyThere at h
  split_ifs at h with hexcluded
  · cases h
  cases speaker with
  | group id => cases h
  | user speakerId =>
    dsimp only at h
    split at h
    · cases h
    split at h
    · cases h
    split at h
    · cases h
    split at h
    · cases h
    next row' readers hfind =>
    split at h
    · cases h
    next prev facts₁ hrestrict =>
    obtain ⟨hrow, rfl⟩ := Prod.mk.inj h
    obtain ⟨rfl, -⟩ := Prod.mk.inj (Option.some.inj hrow)
    obtain ⟨x, hx, hpair⟩ := List.mem_filterMap.mp (List.mem_of_find?_eq_some hfind)
    obtain ⟨readers', hreaders, heq⟩ := Option.map_eq_some_iff.mp hpair
    obtain ⟨rfl, rfl⟩ := Prod.mk.inj heq
    obtain ⟨hmem, hrestricts⟩ := List.mem_filter.mp hx
    exact ⟨hmem, by simpa using hexcluded, hrestricts, _, prev, hreaders, hrestrict⟩

/-- A settled audience is written on a candidate of the claim's subject and author. -/
lemma carryTheNewAudience_cases (h : carryTheNewAudienceOntoTheFactItFoldsInto score roster facts
    candidates audience channel body speaker threshold now = (some (row, s), facts')) :
    row ∈ candidates ∧ row.subjectId = audience.subject ∧ row.senderId = audience.sender ∧
      ∃ settled prev, theAudienceOnceSettled roster row audience = some settled ∧
        FactIndex.restrictTo facts row.factId settled.excluded settled.readers now =
          (some prev, facts') := by
  unfold carryTheNewAudienceOntoTheFactItFoldsInto at h
  cases speaker with
  | group id => cases h
  | user speakerId =>
    dsimp only at h
    split at h
    · cases h
    next row' similarity hclosest =>
    split at h
    · cases h
    split at h
    · cases h
    next settled hsettled =>
    split at h
    · cases h
    split at h
    · cases h
    next prev facts₁ hrestrict =>
    obtain ⟨hrow, rfl⟩ := Prod.mk.inj h
    obtain ⟨rfl, -⟩ := Prod.mk.inj (Option.some.inj hrow)
    obtain ⟨hmem, hsame⟩ := List.mem_filter.mp (mem_of_closestByWords hclosest)
    simp only [Bool.and_eq_true, decide_eq_true_eq] at hsame
    exact ⟨hmem, hsame.1, hsame.2, settled, prev, hsettled, hrestrict⟩

lemma theAudienceOnceSettled_cases {settled : Settled}
    (h : theAudienceOnceSettled roster row audience = some settled) :
    settled.readers = (audienceWithoutTheExcluded (union row.allowIds audience.allow)
        (union row.excludedIds audience.excluded)
        (rosterOf roster (union row.allowIds audience.allow))).1 ∧
      settled.excluded = union row.excludedIds audience.excluded := by
  unfold theAudienceOnceSettled at h
  dsimp only at h
  split_ifs at h
  obtain rfl := Option.some.inj h
  refine ⟨rfl, ?_⟩
  unfold audienceWithoutTheExcluded
  split_ifs <;> rfl

/-! ## The readers after a fold -/

/-- Whether a person reads under a record. -/
def Readable (roster : Roster) (a : RegionAcl) (u : Str) : Prop :=
  rowReadableBy a u (groupsFor roster.groups u) = true

/-- A record with nobody kept out. -/
def unfenced (a : RegionAcl) : RegionAcl := { a with excluded := [] }

lemma readable_iff {roster : Roster} {a : RegionAcl} {u : Str} :
    Readable roster a u ↔ ¬ Reaches roster a.excluded u ∧
      (Reaches roster (a.subject :: a.allow) u ∨ Reaches roster a.sender.toList u) := by
  unfold Readable rowReadableBy
  rw [canRead_eq_true_iff]
  refine and_congr (by simp [Reaches, HeldBy, RegionAcl.toAcl]) ?_
  constructor
  · rintro ⟨p, hheld, hp | hp | hp⟩
    · exact .inl ⟨p, by simp [Option.some.inj hp], hheld⟩
    · exact .inl ⟨p, List.mem_cons_of_mem _ hp, hheld⟩
    · exact .inr ⟨p, by simp [hp], hheld⟩
  · rintro (⟨p, hp, hheld⟩ | ⟨p, hp, hheld⟩)
    · rcases List.mem_cons.mp hp with rfl | hp
      · exact ⟨_, hheld, .inl rfl⟩
      · exact ⟨p, hheld, .inr (.inl hp)⟩
    · exact ⟨p, hheld, .inr (.inr (by simpa using hp))⟩

/-- What the record of a fact became once a claim folded into it is what the claim asks. -/
structure FoldExact (roster : Roster) (claim fact fact' : RegionAcl) : Prop where
  /-- whoever either is kept from does not read the fact -/
  keptOut : ∀ u, Reaches roster claim.excluded u ∨ Reaches roster fact.excluded u →
    ¬ Readable roster fact' u
  /-- no exclusion is gone -/
  stillExcluded : fact.excluded ⊆ fact'.excluded
  /-- the readers are those of the two, less whoever either is kept from -/
  readers : fact.excluded = [] ∧ claim.excluded = [] ∨
      Principal.global ∉ fact.allow ∧ Principal.global ∉ claim.allow →
    ∀ u, Readable roster fact' u ↔
      (Readable roster (unfenced fact) u ∨ Readable roster (unfenced claim) u) ∧
        ¬ Reaches roster claim.excluded u ∧ ¬ Reaches roster fact.excluded u

/-- A fold is exact when what it writes is kept from the people of both lists, and reaches, of
those it is not kept from, the people of both audiences. -/
lemma foldExact_of_reaches {claim fact : RegionAcl} {excluded readers : List Principal}
    (hsubject : fact.subject = claim.subject) (hsender : fact.sender = claim.sender)
    (hexcluded : ∀ p, p ∈ excluded ↔ p ∈ fact.excluded ∨ p ∈ claim.excluded)
    (hreaders : fact.excluded = [] ∧ claim.excluded = [] ∨
        Principal.global ∉ fact.allow ∧ Principal.global ∉ claim.allow →
      ∀ u, .user u ∉ excluded → (Reaches roster (fact.subject :: readers) u ↔
        Reaches roster (fact.subject :: fact.allow) u ∨
          Reaches roster (fact.subject :: claim.allow) u)) :
    FoldExact roster claim fact { fact with excluded, allow := readers } := by
  have hfence : ∀ u, Reaches roster excluded u ↔
      Reaches roster claim.excluded u ∨ Reaches roster fact.excluded u := by
    intro u
    simp only [Reaches, hexcluded, or_and_right, exists_or]
    exact or_comm
  refine ⟨?_, ?_, ?_⟩
  · intro u hu hreads
    exact (readable_iff.mp hreads).1 ((hfence u).mpr hu)
  · intro p hp
    exact (hexcluded p).mpr (.inl hp)
  · intro hplain u
    have hnone : ¬ Reaches roster [] u := by simp [Reaches]
    simp only [readable_iff, unfenced, hnone, not_false_eq_true, true_and, ← hsubject, ← hsender]
    rw [hfence, not_or]
    by_cases hout : Reaches roster claim.excluded u ∨ Reaches roster fact.excluded u
    · rw [← not_or]
      simp [hout]
    · have hu : .user u ∉ excluded := fun hu => hout ((hfence u).mp ⟨_, hu, .inr (.inl rfl)⟩)
      rw [hreaders hplain u hu]
      tauto

lemma reaches_cons {p : Principal} {ps : List Principal} {u : Str} :
    Reaches roster (p :: ps) u ↔ p ∈ HeldBy roster u ∨ Reaches roster ps u := by
  simp [Reaches]

/-- Equal reader sets reach the same people. -/
lemma reaches_of_readerSet_eq {p q : Principal} {ps qs : List Principal}
    (h : readerSet p ps none [] = readerSet q qs none []) (u : Str) :
    Reaches roster (p :: ps) u ↔ Reaches roster (q :: qs) u := by
  unfold Reaches
  simp only [mem_of_readerSet_eq h]

/-- The readers by name are those of the fact and of the claim, less whoever is kept out. -/
lemma reaches_theSameReadersOnceFrozen {readers : List Principal} {u : Str}
    (h : theSameReadersOnceFrozen roster row audience = some readers)
    (hsubject : row.subjectId = audience.subject) (hexcluded : audience.excluded ≠ [])
    (hrow : Principal.global ∉ row.allowIds) (hclaim : Principal.global ∉ audience.allow)
    (hu : .user u ∉ audience.excluded) :
    Reaches roster (row.subjectId :: readers) u ↔
      Reaches roster (row.subjectId :: row.allowIds) u ∨
        Reaches roster (row.subjectId :: audience.allow) u := by
  unfold theSameReadersOnceFrozen at h
  dsimp only at h
  split_ifs at h with hsame
  obtain rfl := Option.some.inj h
  have hfrozen := @reaches_frozen roster _ _ _ _ hexcluded
    (fun p (hp : p ∈ row.allowIds) => List.mem_append_left audience.allow hp) hrow hu
  have hfrozenClaim := @reaches_frozen roster _ _ _ _ hexcluded
    (fun p (hp : p ∈ audience.allow) => List.mem_append_right row.allowIds hp) hclaim hu
  have hboth := @reaches_of_readerSet_eq roster _ _ _ _ hsame u
  rw [reaches_cons, reaches_cons, hfrozen, hfrozenClaim, ← hsubject] at hboth
  simp only [reaches_cons, hfrozen]
  tauto

/-- The readers that are settled are those of the fact and of the claim, less whoever is kept
out. -/
lemma reaches_settled {settled : Settled} {u : Str}
    (h : theAudienceOnceSettled roster row audience = some settled)
    (hplain : row.excludedIds = [] ∧ audience.excluded = [] ∨
      Principal.global ∉ row.allowIds ∧ Principal.global ∉ audience.allow)
    (hu : .user u ∉ settled.excluded) :
    Reaches roster settled.readers u ↔
      Reaches roster row.allowIds u ∨ Reaches roster audience.allow u := by
  obtain ⟨hreaders, hexcluded⟩ := theAudienceOnceSettled_cases h
  rw [hexcluded] at hu
  rw [hreaders, ← reaches_union]
  by_cases hnobody : union row.excludedIds audience.excluded = []
  · rw [hnobody]
    exact Iff.rfl
  · obtain ⟨hrow, hclaim⟩ := hplain.resolve_left fun ⟨hrow, hclaim⟩ =>
      hnobody (by rw [hrow, hclaim]; rfl)
    refine reaches_frozen hnobody (fun p hp => hp) ?_ hu
    rw [mem_union, not_or]
    exact ⟨hrow, hclaim⟩

/-- A fold changes the readers of a fact exactly as the claim asks: nobody either is kept from
reads it, no exclusion is gone, and it is read by whoever read the fact or the claim and is kept
from neither, unless somebody is kept out and an audience is everybody. -/
theorem fold_readers_exact (hstored : ∀ r ∈ candidates, facts.get? r.factId = some r)
    (h : applyExclusionToTheFactAlreadyThere score roster facts candidates audience channel body
          speaker threshold now = (some (row, s), facts') ∨
        carryTheNewAudienceOntoTheFactItFoldsInto score roster facts candidates audience channel
          body speaker threshold now = (some (row, s), facts')) :
    ∃ row', facts'.get? row.factId = some row' ∧
      FoldExact roster audience.acl row.acl row'.acl := by
  rcases h with h | h
  · obtain ⟨hmem, hexcluded, hrestricts, readers, prev, hreaders, hwrite⟩ :=
      applyExclusion_cases h
    simp only [Audience.restricts, Bool.and_eq_true, decide_eq_true_eq] at hrestricts
    obtain ⟨⟨⟨hsubject, hsender⟩, -⟩, -⟩ := hrestricts
    refine ⟨_, FactIndex.get?_of_restrictTo hwrite (hstored row hmem), ?_⟩
    refine foldExact_of_reaches hsubject hsender ?_ ?_
    · intro p
      simp [Audience.acl, FactRow.acl, FactRow.restricted]
    · intro hplain u hu
      have hout : .user u ∉ audience.excluded := fun hin =>
        hu (List.mem_eraseDups.mpr (List.mem_append_right _ hin))
      obtain ⟨hrow, hclaim⟩ := hplain.resolve_left fun hnone => hexcluded hnone.2
      exact reaches_theSameReadersOnceFrozen hreaders hsubject hexcluded hrow hclaim hout
  · obtain ⟨hmem, hsubject, hsender, settled, prev, hsettled, hwrite⟩ :=
      carryTheNewAudience_cases h
    obtain ⟨-, hexcluded⟩ := theAudienceOnceSettled_cases hsettled
    refine ⟨_, FactIndex.get?_of_restrictTo hwrite (hstored row hmem), ?_⟩
    refine foldExact_of_reaches hsubject hsender ?_ ?_
    · intro p
      simp only [FactRow.restricted, FactRow.acl, Audience.acl, List.mem_eraseDups,
        List.mem_append, hexcluded, mem_union]
      tauto
    · intro hplain u hu
      have hout : .user u ∉ settled.excluded := fun hin =>
        hu (List.mem_eraseDups.mpr (List.mem_append_right _ hin))
      have hreach := reaches_settled hsettled hplain hout
      simp only [reaches_cons, FactRow.acl, Audience.acl, FactRow.restricted, hreach]
      tauto

end Folds

/-! ## A fact for the parents -/

open FactIndex (halfPast)

/-- Alice, Bob and Carol are parents. -/
def household : Roster where
  groups := [⟨"parents".toList, ["alice".toList, "bob".toList, "carol".toList]⟩]
  valid := by decide

/-- A fact of Alice's for the parents. -/
def forParents : FactRow :=
  { halfPast with
    allowIds := [.group "parents".toList]
    senderId := some (.user "alice".toList) }.row []

/-- The fact index with that fact. -/
def storedForParents : FactTable := Sql.Table.insertIfAbsent (Sql.Table.empty _) forParents

/-- The same claim, kept from Bob. -/
def notForBob : Audience where
  subject := .user "alice".toList
  allow := [.user "carol".toList]
  excluded := [.user "bob".toList]
  sender := some (.user "alice".toList)

/-- The fact is found by its words. -/
def foldedForBob : Option (FactRow × ℕ) × FactTable :=
  applyExclusionToTheFactAlreadyThere (fun _ _ => 1) household storedForParents
    [forParents] notForBob none [] (.user "alice".toList) 1 []

theorem fold_readers_exact_notForBob :
    ∃ row row', foldedForBob.1 = some (row, 1) ∧ foldedForBob.2.get? row.factId = some row' ∧
      FoldExact household notForBob.acl row.acl row'.acl := by
  have hfolds : foldedForBob.1.any (fun e => e.2 = 1) = true := by decide +kernel
  obtain ⟨⟨row, s⟩, hrow, hs⟩ := (Option.any_eq_true _ _).mp hfolds
  obtain rfl : s = 1 := of_decide_eq_true hs
  have hstored : ∀ r ∈ [forParents], storedForParents.get? r.factId = some r := by
    intro r hr
    rw [List.mem_singleton.mp hr]
    rfl
  obtain ⟨row', hrow', hexact⟩ := fold_readers_exact hstored
    (.inl (Prod.ext hrow rfl : foldedForBob = (some (row, 1), foldedForBob.2)))
  exact ⟨row, row', hrow, hrow', hexact⟩

end Capture

end Mwe
