import MweCore.Types
import MweCore.Lib.Sql

/-!
# Who may read a region

The read decision is written three times in the source.  `canRead` matches every stored
principal against the reader; `readerPrincipals` turns the question round and lists the wire
forms the reader answers to, so that a region is readable when that list meets the granting terms
and misses the excluded ones (`Audience.Admits`); `readableBySql` asks the second question of a
stored row in SQL, where the sender column may be NULL.

What all of them decide is stated once, abstractly: the reader holds a set of names, a fact's
audience grants to some and is kept from others.  Each formulation is connected to that reading
by one lemma, and `read_checks_agree` puts them together.
-/

namespace Mwe

open Sql

/-! ## The check over principals -/

/-- Whether a stored principal names this reader; everyone is a member of `global`. -/
def principalMatches (p : Principal) (senderId : Str) (senderGroups : List Str) : Bool :=
  match p with
  | .user id => id == senderId
  | .group id => id == "global".toList || senderGroups.any (· == id)

/-- Whether a reader can read a region: the exclusions close it first, then subject, audience
and sender each open it. -/
def canRead (regionAcl : Acl) (senderId : Str) (senderGroups : List Str)
    (senderOfRegion : Option Principal) : Bool :=
  if regionAcl.excluded.any fun p => principalMatches p senderId senderGroups then false
  else (regionAcl.subject.toList ++ regionAcl.allow ++ senderOfRegion.toList).any fun p =>
    principalMatches p senderId senderGroups

/-- The wire forms of the principals a reader answers to. -/
def readerPrincipals (senderId : Str) (senderGroups : List Str) : List Str :=
  [Principal.global.display, (Principal.user senderId).display] ++
    senderGroups.map fun g => (Principal.group g).display

/-! ## Rows of the index -/

/-- The authoritative access record of one region; the subject is never missing. -/
structure RegionAcl where
  subject : Principal
  allow : List Principal := []
  excluded : List Principal := []
  sender : Option Principal := none
  deriving DecidableEq

/-- The record as an access list. -/
def RegionAcl.toAcl (r : RegionAcl) : Acl :=
  { subject := some r.subject, allow := r.allow, excluded := r.excluded }

/-- May this reader read this one fact? -/
def rowReadableBy (row : RegionAcl) (senderId : Str) (senderGroups : List Str) : Bool :=
  canRead row.toAcl senderId senderGroups row.sender

/-- The access columns of a stored row: text, and JSON arrays of text. -/
structure AclColumns where
  subjectId : Str
  allowIds : List Str
  senderId : Option Str
  excludedIds : List Str
  deriving DecidableEq

/-- The columns an insert writes for a record. -/
def RegionAcl.columns (r : RegionAcl) : AclColumns where
  subjectId := r.subject.display
  allowIds := r.allow.map Principal.display
  senderId := r.sender.map Principal.display
  excludedIds := r.excluded.map Principal.display

/-- The predicate that selects the rows a reader with these principals may read. -/
def readableBySql (principals : List Str) : Pred AclColumns Str :=
  .and (.not (.existsIn AclColumns.excludedIds principals))
    (.or
      (.or (.inList (fun row => some row.subjectId) principals)
        (.inList AclColumns.senderId principals))
      (.existsIn AclColumns.allowIds principals))

/-! ## Audiences compared, and who may rewrite -/

/-- Who a region is read by, as a comparable set: the names that open it, and the names it is
kept from. -/
def readerSet (subject : Principal) (allow : List Principal) (sender : Option Principal)
    (excluded : List Principal) : Finset Str :=
  ((subject :: allow ++ sender.toList).map Principal.display ++
    excluded.map fun p => "not:".toList ++ p.display).toFinset

/-- Whether the sender is the subject, or of the group that is. -/
def senderIsSubject (subject : Principal) (senderId : Str) (senderGroups : List Str) : Bool :=
  match subject with
  | .user id => id == senderId
  | .group id => if id = "global".toList then false else senderGroups.any (· == id)

/-- Whether the sender may rewrite a fact: its subject may, and whoever said it. -/
def senderMayRewrite (subject : Principal) (factSender : Option Principal) (senderId : Str)
    (senderGroups : List Str) : Bool :=
  senderIsSubject subject senderId senderGroups ||
    factSender.any fun s => senderIsSubject s senderId senderGroups

/-- With nobody kept out, two equal reader sets are opened by the same names. -/
lemma mem_of_readerSet_eq {subject subject' : Principal} {allow allow' : List Principal}
    (h : readerSet subject allow none [] = readerSet subject' allow' none []) {p : Principal} :
    p ∈ subject :: allow ↔ p ∈ subject' :: allow' := by
  have hmem : ∀ (subject : Principal) (allow : List Principal),
      p.display ∈ readerSet subject allow none [] ↔ p ∈ subject :: allow := by
    intro subject allow
    simp [readerSet, Principal.display_injective.eq_iff]
  rw [← hmem, ← hmem, h]

/-! ## The abstract reading -/

/-- The principals a reader holds. -/
def Holds (senderId : Str) (senderGroups : List Str) : Set Principal :=
  {p | p = Principal.global ∨ p = .user senderId ∨ ∃ g ∈ senderGroups, p = .group g}

/-- A fact's audience: who it is opened to and who it is kept from. -/
structure Audience (α : Type*) where
  grants : Set α
  excluded : Set α

/-- An audience admits whoever holds a granting name and no excluded one. -/
def Audience.Admits {α : Type*} (a : Audience α) (held : Set α) : Prop :=
  (held ∩ a.grants).Nonempty ∧ Disjoint held a.excluded

/-- The audience of a record, over principals. -/
def RegionAcl.audience (r : RegionAcl) : Audience Principal where
  grants := {p | p = r.subject ∨ p ∈ r.allow ∨ r.sender = some p}
  excluded := {p | p ∈ r.excluded}

/-- Renaming by an injection changes no decision. -/
lemma Audience.admits_image_iff {α β : Type*} {f : α → β} (hf : Function.Injective f)
    (a : Audience α) (held : Set α) :
    (Audience.mk (f '' a.grants) (f '' a.excluded)).Admits (f '' held) ↔ a.Admits held := by
  unfold Admits
  rw [← Set.image_inter hf, Set.image_nonempty, Set.disjoint_image_iff hf]

/-! ## Each formulation decides the abstract one -/

/-- The match over one principal is membership in what the reader holds. -/
lemma principalMatches_iff {p : Principal} {senderId : Str} {senderGroups : List Str} :
    principalMatches p senderId senderGroups = true ↔ p ∈ Holds senderId senderGroups := by
  cases p with
  | user id => simp [principalMatches, Holds, Principal.global]
  | group id =>
    simp only [principalMatches, Holds, Principal.global, Bool.or_eq_true, beq_iff_eq,
      List.any_eq_true, Set.mem_ofPred_eq, Principal.group.injEq, reduceCtorEq, false_or]
    exact or_congr_right ⟨fun ⟨g, hg, h⟩ => ⟨g, hg, h.symm⟩, fun ⟨g, hg, h⟩ => ⟨g, hg, h.symm⟩⟩

/-- What `canRead` decides, for any access list and sender. -/
lemma canRead_eq_true_iff (acl : Acl) (senderId : Str) (senderGroups : List Str)
    (sender : Option Principal) :
    canRead acl senderId senderGroups sender = true ↔
      (∀ p ∈ acl.excluded, p ∉ Holds senderId senderGroups) ∧
        ∃ p ∈ Holds senderId senderGroups, acl.subject = some p ∨ p ∈ acl.allow ∨
          sender = some p := by
  unfold canRead
  split
  · next h =>
    obtain ⟨p, hp, hmatch⟩ := List.any_eq_true.mp h
    exact iff_of_false (by simp) fun hr => hr.1 p hp (principalMatches_iff.mp hmatch)
  · next h =>
    have hexcluded : ∀ p ∈ acl.excluded, p ∉ Holds senderId senderGroups := fun p hp hheld =>
      h (List.any_eq_true.mpr ⟨p, hp, principalMatches_iff.mpr hheld⟩)
    rw [and_iff_right hexcluded, List.any_eq_true]
    simp only [principalMatches_iff, List.mem_append, Option.mem_toList, or_assoc]
    exact ⟨fun ⟨p, hp, hheld⟩ => ⟨p, hheld, hp⟩, fun ⟨p, hheld, hp⟩ => ⟨p, hp, hheld⟩⟩

/-- The match over principals decides the abstract reading. -/
lemma canRead_iff_admits (r : RegionAcl) (senderId : Str) (senderGroups : List Str) :
    canRead r.toAcl senderId senderGroups r.sender = true ↔
      r.audience.Admits (Holds senderId senderGroups) := by
  rw [canRead_eq_true_iff, Audience.Admits, Set.disjoint_right, and_comm]
  have hgrants : ∀ p, (r.toAcl.subject = some p ∨ p ∈ r.toAcl.allow ∨ r.sender = some p) ↔
      p ∈ r.audience.grants := fun p => by simp [RegionAcl.toAcl, RegionAcl.audience, eq_comm]
  simp only [hgrants]
  exact Iff.rfl

/-- The strings the reader answers to are the wire forms of the principals they hold. -/
lemma mem_readerPrincipals_iff {s senderId : Str} {senderGroups : List Str} :
    s ∈ readerPrincipals senderId senderGroups ↔
      s ∈ Principal.display '' Holds senderId senderGroups := by
  simp only [readerPrincipals, List.mem_append, List.mem_cons, List.mem_map, List.not_mem_nil,
    or_false]
  constructor
  · rintro ((rfl | rfl) | ⟨g, hg, rfl⟩)
    · exact ⟨_, .inl rfl, rfl⟩
    · exact ⟨_, .inr (.inl rfl), rfl⟩
    · exact ⟨_, .inr (.inr ⟨g, hg, rfl⟩), rfl⟩
  · rintro ⟨p, rfl | rfl | ⟨g, hg, rfl⟩, rfl⟩
    · exact .inl (.inl rfl)
    · exact .inl (.inr rfl)
    · exact .inr ⟨g, hg, rfl⟩

/-- The audience of a record, over the wire forms stored for it. -/
def AclColumns.audience (row : AclColumns) : Audience Str where
  grants := {s | s = row.subjectId ∨ s ∈ row.allowIds ∨ row.senderId = some s}
  excluded := {s | s ∈ row.excludedIds}

/-- What is stored for a record is the record's audience, written out. -/
lemma audience_columns (r : RegionAcl) :
    r.columns.audience =
      ⟨Principal.display '' r.audience.grants, Principal.display '' r.audience.excluded⟩ := by
  have hgrants : r.columns.audience.grants = Principal.display '' r.audience.grants := by
    ext s
    simp only [AclColumns.audience, RegionAcl.columns, RegionAcl.audience, Set.mem_ofPred_eq,
      List.mem_map, Option.map_eq_some_iff, Set.mem_image]
    constructor
    · rintro (rfl | ⟨p, hp, rfl⟩ | ⟨p, hp, rfl⟩)
      · exact ⟨_, .inl rfl, rfl⟩
      · exact ⟨p, .inr (.inl hp), rfl⟩
      · exact ⟨p, .inr (.inr hp), rfl⟩
    · rintro ⟨p, rfl | hp | hp, rfl⟩
      · exact .inl rfl
      · exact .inr (.inl ⟨p, hp, rfl⟩)
      · exact .inr (.inr ⟨p, hp, rfl⟩)
  have hexcluded : r.columns.audience.excluded = Principal.display '' r.audience.excluded := by
    ext s
    simp [AclColumns.audience, RegionAcl.columns, RegionAcl.audience]
  rw [← hgrants, ← hexcluded]

/-- The string sets of the reader and of the stored row decide the abstract reading. -/
lemma columns_admits_iff (r : RegionAcl) (senderId : Str) (senderGroups : List Str) :
    r.columns.audience.Admits {s | s ∈ readerPrincipals senderId senderGroups} ↔
      r.audience.Admits (Holds senderId senderGroups) := by
  have hheld : {s | s ∈ readerPrincipals senderId senderGroups} =
      Principal.display '' Holds senderId senderGroups := by
    ext s
    exact mem_readerPrincipals_iff
  rw [hheld, audience_columns, Audience.admits_image_iff Principal.display_injective]

/-- The SQL predicate selects a row exactly when the row's audience admits the principals bound
to it; a NULL sender grants nothing. -/
lemma readableBySql_selects_iff (principals : List Str) (row : AclColumns) :
    (readableBySql principals).Selects row ↔ row.audience.Admits {s | s ∈ principals} := by
  simp only [readableBySql, Pred.selects_and_iff,
    Pred.selects_not_iff (Pred.twoValued_existsIn _ _ _), Pred.selects_or_iff,
    Pred.selects_inList_iff, Pred.selects_existsIn_iff, Audience.Admits, AclColumns.audience,
    Set.disjoint_left, Set.Nonempty, Set.mem_inter_iff, Set.mem_ofPred_eq, Option.some.injEq,
    not_exists, not_and]
  rw [and_comm]
  refine and_congr_left fun _ => ⟨?_, ?_⟩
  · rintro ((⟨s, hs, rfl⟩ | ⟨s, hs, h⟩) | ⟨s, hs, h⟩)
    · exact ⟨_, hs, .inl rfl⟩
    · exact ⟨s, hs, .inr (.inr h)⟩
    · exact ⟨s, hs, .inr (.inl h)⟩
  · rintro ⟨s, hs, rfl | h | h⟩
    · exact .inl (.inl ⟨_, hs, rfl⟩)
    · exact .inr ⟨s, hs, h⟩
    · exact .inl (.inr ⟨s, hs, h⟩)

/-! ## Agreement -/

/-- The formulations of the read check agree on every row, reader and list of groups: the match
over principals, the sets of strings, the SQL predicate over the stored columns, and the check of
a row in hand. -/
theorem read_checks_agree (row : RegionAcl) (senderId : Str) (senderGroups : List Str) :
    List.TFAE [
      canRead row.toAcl senderId senderGroups row.sender = true,
      (∃ s ∈ readerPrincipals senderId senderGroups,
          s = row.subject.display ∨ s ∈ row.allow.map Principal.display ∨
            row.sender.map Principal.display = some s) ∧
        ∀ s ∈ readerPrincipals senderId senderGroups, s ∉ row.excluded.map Principal.display,
      (readableBySql (readerPrincipals senderId senderGroups)).Selects row.columns,
      rowReadableBy row senderId senderGroups = true] := by
  tfae_have 1 ↔ 4 := Iff.rfl
  tfae_have 1 ↔ 3 := by
    rw [canRead_iff_admits, readableBySql_selects_iff, columns_admits_iff]
  tfae_have 1 ↔ 2 := by
    rw [canRead_iff_admits, ← columns_admits_iff, Audience.Admits, Set.disjoint_left]
    exact Iff.rfl
  tfae_finish

end Mwe
