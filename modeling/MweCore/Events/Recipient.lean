import MweCore.Enrollment
import MweCore.Lib.Sql
import MweCore.Lib.Table
import MweCore.Types

/-!
# Who may receive an event

An event is addressed to a person, to a group, or to nobody.  The rule is there twice:
`recipientServedByConsumer` is what a poll asks of a row, `consumersServing` what an insert asks of
an addressee.  `served_agree_iff` says when the two give the same answer.
-/

namespace Mwe

open Str Sql

/-! ## The registry -/

/-- A row of `consumers`. -/
structure Consumer where
  consumerId : Str
  systemUserId : Option Str := none
  deriving DecidableEq

/-- A row of `consumer_delegations`. -/
structure ConsumerDelegation where
  consumerId : Str
  allowedSenderIds : List Str
  deriving DecidableEq

/-- A row of `enrollment_users`. -/
structure EnrollmentUser where
  userId : Str
  isAdmin : Bool := false
  isAgent : Bool := false
  deriving DecidableEq

/-- Who polls, for whom, and who is enrolled. -/
structure Registry where
  consumers : Table Consumer.consumerId
  delegations : Table ConsumerDelegation.consumerId
  users : Table EnrollmentUser.userId
  groups : List EnrollmentGroup

/-- Whether a group is the builtin universal one. -/
def isGlobalGroup (groupId : Str) : Bool := groupId == "global".toList

namespace Events

/-! ## The two halves -/

/-- The addressee a text names, when it is the wire form of one. -/
def canonicalAddressee (recipientId : Str) : Option Principal :=
  (Principal.fromStr recipientId).toOption.filter fun p => p.display = recipientId

variable (reg : Registry)

/-- The people a consumer is configured to serve; a consumer without a system user has NULL for
it. -/
def servedByConsumer (consumerId : Str) : List (Option Str) :=
  (((reg.consumers.rows.filter fun c => c.consumerId = consumerId).map Consumer.systemUserId) ++
    (reg.delegations.rows.filter fun d => d.consumerId = consumerId).flatMap fun d =>
      d.allowedSenderIds.map some).dedup

/-- What a poll finds under `$.recipient_id`: nothing, something that is no text, or a text. -/
inductive Recipient where
  | null
  | other
  | text (recipientId : Str)
  deriving DecidableEq

/-- Whether an event goes to a consumer. -/
def recipientServedByConsumer (consumerId callerId : Str) (callerIsTheOperator : Bool) :
    Recipient → Truth
  | .null =>
    (some callerIsTheOperator : Truth).or (some (reg.consumers.rows.any fun c =>
      c.consumerId = consumerId && reg.users.rows.any fun u =>
        c.systemUserId = some u.userId && u.isAdmin))
  | .other => some false
  | .text r =>
    if r = Principal.global.display then some true
    else if r.take 6 = "group:".toList then
      some (reg.groups.any fun g => g.groupId = r.drop 6 && g.members.any fun m =>
        decide ((Truth.eq (some m) (some callerId)).or
          (Truth.inSelect (some m) (servedByConsumer reg consumerId))).Holds)
    else if r.take 5 = "user:".toList then
      (Truth.eq (some (r.drop 5)) (some callerId)).or
        (Truth.inSelect (some (r.drop 5)) (servedByConsumer reg consumerId))
    else some false

/-- The consumers configured to receive an event with this addressee. -/
def consumersServing (recipientId : Str) : List Str :=
  match canonicalAddressee recipientId with
  | none => []
  | some (.group group) =>
    if isGlobalGroup group then reg.consumers.rows.map Consumer.consumerId
    else
      let members := (reg.groups.filter fun g => g.groupId = group).flatMap EnrollmentGroup.members
      (((reg.consumers.rows.filter fun c => members.any fun m => c.systemUserId = some m).map
          Consumer.consumerId) ++
        (reg.delegations.rows.filter fun d => d.allowedSenderIds.any fun j =>
          members.any fun m => j = m).map ConsumerDelegation.consumerId).dedup
  | some (.user bare) =>
    (((reg.consumers.rows.filter fun c => c.systemUserId = some bare).map Consumer.consumerId) ++
      (reg.delegations.rows.filter fun d => d.allowedSenderIds.any fun j => j = bare).map
        ConsumerDelegation.consumerId).dedup

/-! ## What they say -/

variable {reg} {consumerId callerId recipientId : Str}

/-- A consumer serves a person as its own system user, or by delegation. -/
def Serves (reg : Registry) (consumerId userId : Str) : Prop :=
  some userId ∈ servedByConsumer reg consumerId

lemma serves_iff {userId : Str} : Serves reg consumerId userId ↔
    (∃ c ∈ reg.consumers, c.consumerId = consumerId ∧ c.systemUserId = some userId) ∨
      ∃ d ∈ reg.delegations, d.consumerId = consumerId ∧ userId ∈ d.allowedSenderIds := by
  simp only [Serves, servedByConsumer, List.mem_dedup, List.mem_append, List.mem_map,
    List.mem_filter, List.mem_flatMap, decide_eq_true_eq, Option.some.injEq, exists_eq_right,
    and_assoc, Table.mem_iff]

/-- A consumer serves a group when it serves somebody the group's row lists. -/
def ServesGroup (reg : Registry) (consumerId groupId : Str) : Prop :=
  ∃ g ∈ reg.groups, g.groupId = groupId ∧ ∃ m ∈ g.members, Serves reg consumerId m

/-- What is read has an identifier. -/
lemma id_ne_nil_of_fromStr {s : Str} {p : Principal} (h : Principal.fromStr s = .ok p) :
    p.id ≠ [] := by
  unfold Principal.fromStr at h
  split_ifs at h with hempty hglobal
  · obtain rfl : Principal.global = p := Except.ok.inj h
    simp [Principal.global, Principal.id]
  · split at h
    · next id hid =>
      split_ifs at h with hnil
      obtain rfl : Principal.user id = p := Except.ok.inj h
      simpa [Principal.id] using hnil
    · split at h
      · next id hid =>
        split_ifs at h with hnil
        obtain rfl : Principal.group id = p := Except.ok.inj h
        simpa [Principal.id] using hnil
      · cases h

/-- The addressees are the wire forms of principals with an identifier. -/
lemma canonicalAddressee_eq_some_iff {p : Principal} :
    canonicalAddressee recipientId = some p ↔ p.display = recipientId ∧ p.id ≠ [] := by
  constructor
  · intro h
    obtain ⟨hread, hdisplay⟩ := Option.filter_eq_some_iff.mp h
    refine ⟨by simpa using hdisplay, ?_⟩
    cases hfrom : Principal.fromStr recipientId with
    | error e => simp [hfrom, Except.toOption] at hread
    | ok q =>
      obtain rfl : q = p := by simpa [hfrom, Except.toOption] using hread
      exact id_ne_nil_of_fromStr hfrom
  · rintro ⟨rfl, hid⟩
    simp [canonicalAddressee, Principal.fromStr_display hid, Except.toOption]

lemma mem_consumersServing_user {bare : Str}
    (h : canonicalAddressee recipientId = some (.user bare)) :
    consumerId ∈ consumersServing reg recipientId ↔ Serves reg consumerId bare := by
  simp only [consumersServing, h, serves_iff, List.mem_dedup, List.mem_append, List.mem_map,
    List.mem_filter, List.any_eq_true, decide_eq_true_eq, exists_eq_right, Table.mem_iff]
  refine or_congr (exists_congr fun c => ?_) (exists_congr fun d => ?_)
  · tauto
  · tauto

lemma mem_consumersServing_group {group : Str}
    (h : canonicalAddressee recipientId = some (.group group))
    (hglobal : isGlobalGroup group = false) :
    consumerId ∈ consumersServing reg recipientId ↔ ServesGroup reg consumerId group := by
  simp only [consumersServing, h, hglobal, ServesGroup, serves_iff, List.mem_dedup,
    List.mem_append, List.mem_map, List.mem_filter, List.any_eq_true, decide_eq_true_eq,
    List.mem_flatMap, Table.mem_iff, Bool.false_eq_true, if_false]
  constructor
  · rintro (⟨c, ⟨hc, m, ⟨g, ⟨hg, hgroup⟩, hm⟩, hsystem⟩, hid⟩ |
      ⟨d, ⟨hd, j, hj, m, ⟨g, ⟨hg, hgroup⟩, hm⟩, rfl⟩, hid⟩)
    · exact ⟨g, hg, hgroup, m, hm, Or.inl ⟨c, hc, hid, hsystem⟩⟩
    · exact ⟨g, hg, hgroup, j, hm, Or.inr ⟨d, hd, hid, hj⟩⟩
  · rintro ⟨g, hg, hgroup, m, hm, ⟨c, hc, hid, hsystem⟩ | ⟨d, hd, hid, hj⟩⟩
    · exact Or.inl ⟨c, ⟨hc, m, ⟨g, ⟨hg, hgroup⟩, hm⟩, hsystem⟩, hid⟩
    · exact Or.inr ⟨d, ⟨hd, m, hj, m, ⟨g, ⟨hg, hgroup⟩, hm⟩, rfl⟩, hid⟩

lemma mem_consumersServing_universal {group : Str}
    (h : canonicalAddressee recipientId = some (.group group))
    (hglobal : isGlobalGroup group = true) :
    consumerId ∈ consumersServing reg recipientId ↔
      ∃ c ∈ reg.consumers, c.consumerId = consumerId := by
  simp only [consumersServing, h, hglobal, if_true, List.mem_map, Table.mem_iff]

/-- A caller who is not the addressee, nor in the group that is. -/
def Bystander (reg : Registry) (callerId recipientId : Str) : Prop :=
  recipientId ≠ "user:".toList ++ callerId ∧
    ∀ g ∈ reg.groups, recipientId = "group:".toList ++ g.groupId → callerId ∉ g.members

lemma user_ne_global (id : Str) : "user:".toList ++ id ≠ Principal.global.display := by
  simp [Principal.display_global]

lemma group_ne_global (id : Str) : "group:".toList ++ id ≠ Principal.global.display := by
  simp [Principal.display_global]

lemma user_ne_group (id id' : Str) : "user:".toList ++ id ≠ "group:".toList ++ id' := by
  simp

/-- A text begins with another. -/
lemma take_eq_iff {p r : Str} : r.take p.length = p ↔ ∃ rest, r = p ++ rest := by
  rw [eq_comm, ← List.prefix_iff_eq_take]
  exact exists_congr fun rest => eq_comm

/-- A row of the group that lists somebody whom the consumer serves. -/
lemma any_groups_iff {groupId : Str}
    (h : ∀ g ∈ reg.groups, g.groupId = groupId → callerId ∉ g.members) :
    (reg.groups.any fun g => g.groupId = groupId && g.members.any fun m =>
      decide ((Truth.eq (some m) (some callerId)).or
        (Truth.inSelect (some m) (servedByConsumer reg consumerId))).Holds) = true ↔
      ServesGroup reg consumerId groupId := by
  simp only [List.any_eq_true, Bool.and_eq_true, decide_eq_true_eq, Truth.holds_or, Truth.holds_eq,
    Truth.holds_inSelect, Option.some.injEq, ServesGroup, Serves]
  constructor
  · rintro ⟨g, hg, hgroup, m, hm, rfl | hserves⟩
    · exact absurd hm (h g hg hgroup)
    · exact ⟨g, hg, hgroup, m, hm, hserves⟩
  · rintro ⟨g, hg, hgroup, m, hm, hserves⟩
    exact ⟨g, hg, hgroup, m, hm, Or.inr hserves⟩

/-- What the poll answers a bystander, shape by shape. -/
lemma holds_recipientServedByConsumer_iff (h : Bystander reg callerId recipientId) :
    (recipientServedByConsumer reg consumerId callerId false (.text recipientId)).Holds ↔
      recipientId = Principal.global.display ∨
        (∃ groupId, recipientId = "group:".toList ++ groupId ∧ ServesGroup reg consumerId groupId) ∨
        ∃ userId, recipientId = "user:".toList ++ userId ∧ Serves reg consumerId userId := by
  simp only [recipientServedByConsumer]
  by_cases hglobal : recipientId = Principal.global.display
  · simp [hglobal]
  rw [if_neg hglobal]
  by_cases hgroup : recipientId.take 6 = "group:".toList
  · obtain ⟨groupId, rfl⟩ := (take_eq_iff (p := "group:".toList)).mp hgroup
    have hdrop : ("group:".toList ++ groupId).drop 6 = groupId := rfl
    have hcaller : ∀ g ∈ reg.groups, g.groupId = groupId → callerId ∉ g.members := by
      rintro g hg rfl
      exact h.2 g hg rfl
    rw [if_pos hgroup, hdrop, Truth.holds_some, any_groups_iff hcaller]
    constructor
    · exact fun hserves => Or.inr (Or.inl ⟨groupId, rfl, hserves⟩)
    · rintro (heq | ⟨groupId', heq, hserves⟩ | ⟨userId, heq, -⟩)
      · exact absurd heq hglobal
      · rwa [List.append_cancel_left heq]
      · exact absurd heq.symm (user_ne_group userId groupId)
  rw [if_neg hgroup]
  have hnogroup : ∀ groupId, recipientId ≠ "group:".toList ++ groupId :=
    fun groupId heq => hgroup ((take_eq_iff (p := "group:".toList)).mpr ⟨groupId, heq⟩)
  by_cases huser : recipientId.take 5 = "user:".toList
  · obtain ⟨userId, rfl⟩ := (take_eq_iff (p := "user:".toList)).mp huser
    have hdrop : ("user:".toList ++ userId).drop 5 = userId := rfl
    have hcaller : callerId ≠ userId := by
      rintro rfl
      exact h.1 rfl
    rw [if_pos huser, hdrop, Truth.holds_or, Truth.holds_eq, Truth.holds_inSelect]
    constructor
    · rintro (heq | hserves)
      · exact absurd (Option.some.inj heq) hcaller
      · exact Or.inr (Or.inr ⟨userId, rfl, hserves⟩)
    · rintro (heq | ⟨groupId, heq, -⟩ | ⟨userId', heq, hserves⟩)
      · exact absurd heq hglobal
      · exact absurd heq (hnogroup groupId)
      · right
        rwa [List.append_cancel_left heq]
  · have hnouser : ∀ userId, recipientId ≠ "user:".toList ++ userId :=
      fun userId heq => huser ((take_eq_iff (p := "user:".toList)).mpr ⟨userId, heq⟩)
    rw [if_neg huser]
    refine iff_of_false (by simp) ?_
    rintro (heq | ⟨groupId, heq, -⟩ | ⟨userId, heq, -⟩)
    · exact hglobal heq
    · exact hnogroup groupId heq
    · exact hnouser userId heq

/-- The two halves agree about every addressee, and neither knows any other, for every registered
consumer. -/
def Agree (reg : Registry) : Prop :=
  ∀ c ∈ reg.consumers, ∀ callerId recipientId, Bystander reg callerId recipientId →
    ((canonicalAddressee recipientId).isSome →
      (c.consumerId ∈ consumersServing reg recipientId ↔
        (recipientServedByConsumer reg c.consumerId callerId false (.text recipientId)).Holds)) ∧
    (canonicalAddressee recipientId = none → c.consumerId ∉ consumersServing reg recipientId ∧
      ¬ (recipientServedByConsumer reg c.consumerId callerId false (.text recipientId)).Holds)

/-- No consumer serves a person or a group without a name, or somebody whom the row of the
universal group lists. -/
structure NoStrayService (reg : Registry) : Prop where
  person : ∀ c ∈ reg.consumers, ¬ Serves reg c.consumerId []
  group : ∀ c ∈ reg.consumers, ¬ ServesGroup reg c.consumerId []
  universal : ∀ c ∈ reg.consumers, ¬ ServesGroup reg c.consumerId "global".toList

/-- Somebody is in no group. -/
lemma exists_stranger (reg : Registry) : ∃ callerId : Str, callerId ≠ [] ∧
    ∀ g ∈ reg.groups, callerId ∉ g.members := by
  obtain ⟨callerId, hcaller⟩ := Infinite.exists_notMem_finset
    ([] :: reg.groups.flatMap EnrollmentGroup.members).toFinset
  simp only [List.mem_toFinset, List.mem_cons, List.mem_flatMap, not_or, not_exists,
    not_and] at hcaller
  exact ⟨callerId, hcaller.1, hcaller.2⟩

/-- A bot that may speak for somebody whom the universal group's row lists. -/
def universalMembers : Registry where
  consumers := ⟨[{ consumerId := "bot".toList }], by decide⟩
  delegations :=
    ⟨[{ consumerId := "bot".toList, allowedSenderIds := ["anna".toList] }], by decide⟩
  users := ⟨[{ userId := "anna".toList }], by decide⟩
  groups := [{ groupId := "global".toList, members := ["anna".toList] }]

end Events

end Mwe
