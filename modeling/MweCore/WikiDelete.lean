import MweCore.Gdpr.Fate
import MweCore.Lib.OwnKey
import MweCore.Lib.Tally

/-!
# A page or a wiki is deleted

Deleting a page or a wiki takes the structure away, and each fact is disposed of one by one.  Who
deletes may destroy what they said themselves; what somebody else said goes back into the queue, as
long as that person, or whom the fact is about, has a wiki to be written in.  An administrator may
destroy everything, or dissolve a wiki, which destroys nothing.

`deletePageDirect_disposes` and `deleteWikiSubtree_disposes` say what is under each fact's id
afterwards, and what the reports count.
-/

namespace Mwe

open Str Sql Gdpr

/-! ## One fact -/

namespace Page

/-- How a deletion disposes of each fact. -/
inductive DeletionMode where
  | senderKeyed | tombstoneAll | dissolve
  deriving DecidableEq, Repr

/-- What becomes of one fact. -/
inductive Action where
  | tombstone | evacuate
  deriving DecidableEq, Repr

/-- The home wiki of a principal, if there is one. -/
def existingHomeWiki (wikis : List WikiNode) (p : Principal) : Option Str :=
  let id? := match p with
    | .user id => some id
    | .group id => if id = "global".toList then none else some id
  id?.filter fun id => ((WikiId.parse id).toOption.bind fun wiki => locate wikis wiki.val).isSome

/-- The principal a fact is laid to: its sender, or whom it is about. -/
def responsible (row : FactRow) : Principal := row.senderId.getD row.subjectId

/-- The decision on one fact. -/
def decideFact (responsible subject deleter : Principal) (wikis : List WikiNode) : Action :=
  if responsible = deleter then .tombstone
  else if (existingHomeWiki wikis responsible).isSome then .evacuate
  else if subject = deleter then .tombstone
  else if (existingHomeWiki wikis subject).isSome then .evacuate
  else .tombstone

/-- Do it. -/
def dispose (reason now : Str) (action : FactRow → Action) (s : Store) (row : FactRow) : Store :=
  match action row with
  | .tombstone => { s with facts := (FactIndex.markForgotten s.facts row.factId reason now).2 }
  | .evacuate => (s.rebufferFact row.factId now).2

/-- What happened to the facts of a page. -/
structure PageDeletionOutcome where
  factsTombstoned : ℕ := 0
  factsEvacuated : ℕ := 0
  deriving DecidableEq

/-- Delete a page's facts; `none` for a mode that is not a page's, once the page has a fact. -/
def deletePageDirect (wikis : List WikiNode) (s : Store) (sourcePath : Str) (deleter : Principal)
    (reason now : Str) (mode : DeletionMode) : Option (Store × PageDeletionOutcome) :=
  let rows := s.facts.rows.filter fun r => decide (r.sourcePath = sourcePath) && r.isActive
  let action? : Option (FactRow → Action) := match mode with
    | .tombstoneAll => some fun _ => .tombstone
    | .senderKeyed => some fun row => decideFact (responsible row) row.subjectId deleter wikis
    | .dissolve => none
  match action? with
  | none => if rows.isEmpty then some (s, {}) else none
  | some action => some (rows.foldl (dispose reason now action) s, {
      factsTombstoned := rows.countP fun row => action row = .tombstone
      factsEvacuated := rows.countP fun row => action row = .evacuate })

end Page

/-! ## A wiki and what is under it -/

namespace WikiDelete

open Page

/-- What becomes of the directory. -/
inductive HuskFate where
  | trash | erase
  deriving DecidableEq, Repr

/-- Everything a deletion changes.  Of the rows of a derived index only their wiki counts. -/
structure Memory where
  store : Store
  wikis : List WikiNode
  wikiSections : List Str := []
  smartWikis : List Str := []
  pageCard : List Str := []
  linkKey : List Str := []
  trash : List Str := []

/-- Outcome of a deletion. -/
structure WikiDeleteReport where
  wikiId : Str
  wikisRemoved : ℕ
  factsTombstoned : ℕ := 0
  factsEvacuated : ℕ := 0
  factsUnplaced : ℕ := 0
  sectionsDropped : ℕ := 0
  pageCardsDropped : ℕ := 0
  linkKeysDropped : ℕ := 0
  trashDir : Option Str := none
  deriving DecidableEq

/-- Why a deletion fails. -/
inductive WikiDeleteError where
  | wikiNotFound (id : Str)
  | identity (wikiId wikiType : Str)
  | move (relDir : List Str)
  | erase (relDir : List Str)
  deriving DecidableEq

/-- Whether a type is an identity wiki's. -/
def isIdentityType (wikiType : Str) : Bool :=
  wikiType == "wiki-user".toList || wikiType == "wiki-group".toList

/-- The principal a wiki is the identity of. -/
def identityPrincipal (wikiType wikiId : Str) : Option Principal :=
  if wikiType = "wiki-user".toList then some (.user wikiId)
  else if wikiType = "wiki-group".toList then some (.group wikiId)
  else none

/-- Who is enrolled. -/
structure Roll where
  users : List Str
  groups : List Str

/-- Whether a principal is enrolled. -/
def Roll.principalExists (roll : Roll) : Principal → Bool
  | .user id => roll.users.contains id
  | .group id => roll.groups.contains id

/-- What a deletion was asked for. -/
structure Order where
  target : Str
  deleter : Principal
  mode : DeletionMode
  husk : HuskFate
  now : Str
  stamp : Str
  /-- whether the directory could be moved or removed -/
  huskGone : Bool := true

/-- The facts of one wiki, as the mode says. -/
def disposeWiki (o : Order) (wikis : List WikiNode) (s : Store) (wikiId : Str) : Store :=
  match o.mode with
  | .tombstoneAll => { s with
      facts := FactIndex.markForgottenInWiki s.facts wikiId deleteReason o.now }
  | .dissolve => (FactIndex.findActiveInWiki s.facts wikiId).foldl
      (dispose deleteReason o.now fun _ => .evacuate) s
  | .senderKeyed => (FactIndex.findActiveInWiki s.facts wikiId).foldl
      (dispose deleteReason o.now fun row =>
        decideFact (responsible row) row.subjectId o.deleter wikis) s

/-- What the facts of one wiki add to the report. -/
def countWiki (o : Order) (wikis : List WikiNode) (s : Store) (wikiId : Str)
    (report : WikiDeleteReport) : WikiDeleteReport :=
  let rows := FactIndex.findActiveInWiki s.facts wikiId
  let action := fun row : FactRow => decideFact (responsible row) row.subjectId o.deleter wikis
  match o.mode with
  | .tombstoneAll => { report with
      factsTombstoned := report.factsTombstoned +
        s.facts.rows.countP fun r => decide (r.wikiId = wikiId) && r.deletedAt.isNone }
  | .dissolve => { report with factsUnplaced := report.factsUnplaced + rows.length }
  | .senderKeyed => { report with
      factsTombstoned := report.factsTombstoned + rows.countP fun row => action row = .tombstone
      factsEvacuated := report.factsEvacuated + rows.countP fun row => action row = .evacuate }

/-- One round of the loop: the facts of a wiki, and its rows in the derived indexes. -/
def dropWiki (o : Order) (acc : Memory × WikiDeleteReport) (d : WikiNode) :
    Memory × WikiDeleteReport :=
  let (w, report) := acc
  let report := countWiki o w.wikis w.store d.wikiId report
  ({ w with
      store := disposeWiki o w.wikis w.store d.wikiId
      wikiSections := w.wikiSections.filter fun id => id ≠ d.wikiId
      smartWikis := w.smartWikis.filter fun id => id ≠ d.wikiId
      pageCard := w.pageCard.filter fun id => id ≠ d.wikiId
      linkKey := w.linkKey.filter fun id => id ≠ d.wikiId },
    { report with
      sectionsDropped := report.sectionsDropped + w.wikiSections.count d.wikiId
      pageCardsDropped := report.pageCardsDropped + w.pageCard.count d.wikiId
      linkKeysDropped := report.linkKeysDropped + w.linkKey.count d.wikiId })

/-- Move the directory into the trash, or erase it. -/
def dropHusk (o : Order) (root : WikiNode) (acc : Memory × WikiDeleteReport) :
    Memory × Except WikiDeleteError WikiDeleteReport :=
  let (w, report) := acc
  let left := w.wikis.filter fun d => !root.relDir.isPrefixOf d.relDir
  match o.husk, o.huskGone with
  | .trash, true =>
    let dir := o.target ++ "__".toList ++ o.stamp
    ({ w with wikis := left, trash := w.trash ++ [dir] }, .ok { report with trashDir := some dir })
  | .erase, true => ({ w with wikis := left }, .ok report)
  | .trash, false => (w, .error (.move root.relDir))
  | .erase, false => (w, .error (.erase root.relDir))

/-- Delete a wiki and all of its subwikis. -/
def deleteWikiSubtree (roll : Roll) (w : Memory) (o : Order) :
    Memory × Except WikiDeleteError WikiDeleteReport :=
  match locate w.wikis o.target with
  | none => (w, .error (.wikiNotFound o.target))
  | some root =>
    let subtree := collectSubtree w.wikis root
    if (identityPrincipal root.wikiType root.wikiId).any roll.principalExists then
      (w, .error (.identity o.target root.wikiType))
    else
      dropHusk o root (subtree.foldl (dropWiki o)
        (w, { wikiId := o.target, wikisRemoved := subtree.length }))

/-! ## What is left of a fact -/

/-- What is held of an id once its fact is disposed of. -/
def disposedOf (reason now : Str) (action : Action) (p : Held) : Held :=
  match p.1 with
  | none => p
  | some r =>
    if r.deletedAt.isNone then
      match action with
      | .tombstone => (some (r.forgotten reason now), p.2)
      | .evacuate => (none, some (p.2.elim (r.rebuffered now) BufferedCapture.requeued))
    else p

/-- What becomes of a fact of a wiki that is deleted; nothing becomes of one gone already. -/
def fateOf (o : Order) (wikis : List WikiNode) (r : FactRow) : Option Action :=
  match o.mode with
  | .tombstoneAll => if r.deletedAt.isNone then some .tombstone else none
  | .dissolve => if r.isActive then some .evacuate else none
  | .senderKeyed =>
    if r.isActive then some (decideFact (responsible r) r.subjectId o.deleter wikis) else none

/-- What is held of an id once some wikis are deleted. -/
def left (o : Order) (wikis : List WikiNode) (ids : List Str) (p : Held) : Held :=
  match p.1 with
  | none => p
  | some r =>
    if r.wikiId ∈ ids then (fateOf o wikis r).elim p fun action =>
      disposedOf deleteReason o.now action p
    else p

section Laws

variable {o : Order} {wikis : List WikiNode} {s : Store} {k : FactId} {ids : List Str}
  {action : FactRow → Action} {reason now : Str}

/-- A fact that goes back to the queue, or stays where it is when it was gone. -/
lemma heldAt_rebufferFact (reason : Str) (s : Store) (factId k : FactId) :
    heldAt (s.rebufferFact factId now).2 k =
      if factId = k then disposedOf reason now .evacuate (heldAt s k) else heldAt s k := by
  unfold Store.rebufferFact
  split
  · next hnone =>
    split_ifs with hk
    · subst hk
      rw [disposedOf]
      split
      · rfl
      · next r hr =>
        obtain ⟨hmem, hid⟩ := Table.get?_eq_some_iff.mp (hr : s.facts.get? factId = some r)
        rw [if_neg]
        rw [Option.isNone_iff_eq_none]
        exact FactIndex.activeRow_eq_none hnone hmem hid
    · rfl
  · next r hsome =>
    obtain ⟨hmem, rfl, hlive⟩ := FactIndex.activeRow_eq_some_iff.mp hsome
    have hget : s.facts.get? r.factId = some r := Table.get?_eq_some_iff.mpr ⟨hmem, rfl⟩
    split_ifs with hk
    · subst hk
      have hdisposed : disposedOf reason now .evacuate (heldAt s r.factId) = (none,
          some ((s.queue.get? r.factId).elim (r.rebuffered now) BufferedCapture.requeued)) := by
        simp [disposedOf, heldAt, hget, hlive]
      rw [hdisposed]
      refine Prod.ext ?_ ?_
      · change (s.facts.delete _).get? r.factId = none
        rw [Table.get?_delete, hget]
        exact Option.filter_some_neg (by simp)
      · change (s.queue.upsert _ _ _).get? r.factId = _
        rw [Table.get?_upsert, if_pos (r.captureId_rebuffered now)]
    · refine Prod.ext ?_ ?_
      · change (s.facts.delete _).get? k = s.facts.get? k
        rw [Table.get?_delete]
        cases hother : s.facts.get? k with
        | none => rfl
        | some x =>
          obtain ⟨-, rfl⟩ := Table.get?_eq_some_iff.mp hother
          exact Option.filter_some_pos (by simpa using Ne.symm hk)
      · change (s.queue.upsert _ _ _).get? k = s.queue.get? k
        rw [Table.get?_upsert, if_neg (by simpa using hk)]

/-- Disposing of a fact minds its own id. -/
lemma minds_dispose (reason now : Str) (action : FactRow → Action) :
    OwnKey.Minds heldAt FactRow.factId (dispose reason now action) fun row =>
      disposedOf reason now (action row) where
  own s row := by
    unfold dispose
    split
    · next htombstone =>
      rw [htombstone]
      have hfacts := FactIndex.get?_updateActive s.facts row.factId (FactRow.forgotten reason now)
        (FactRow.factId_forgotten reason now) row.factId
      refine Prod.ext (hfacts.trans ?_) ?_
      · cases hget : s.facts.get? row.factId with
        | none => simp [disposedOf, heldAt, hget]
        | some r => cases hdeleted : r.deletedAt <;> simp [disposedOf, heldAt, hget, hdeleted]
      · change s.queue.get? row.factId = _
        cases hget : s.facts.get? row.factId with
        | none => simp [disposedOf, heldAt, hget]
        | some r => cases hdeleted : r.deletedAt <;> simp [disposedOf, heldAt, hget, hdeleted]
    · next hevacuate =>
      rw [hevacuate, heldAt_rebufferFact reason, if_pos rfl]
  other s row k hk := by
    unfold dispose
    split
    · have hfacts := FactIndex.get?_updateActive s.facts row.factId (FactRow.forgotten reason now)
        (FactRow.factId_forgotten reason now) k
      refine Prod.ext (hfacts.trans ?_) rfl
      simp [heldAt, Ne.symm hk]
    · rw [heldAt_rebufferFact reason, if_neg hk]

lemma mem_findActiveInWiki {facts : FactTable} {wikiId : Str} {r : FactRow} :
    r ∈ FactIndex.findActiveInWiki facts wikiId ↔
      r ∈ facts ∧ r.wikiId = wikiId ∧ r.isActive = true := by
  simp [FactIndex.findActiveInWiki, Table.mem_iff]

/-- A loop over the active facts of a wiki. -/
lemma heldAt_foldl_dispose (s : Store) (wikiId : Str) (k : FactId) :
    heldAt ((FactIndex.findActiveInWiki s.facts wikiId).foldl (dispose reason now action) s) k =
      match s.facts.get? k with
      | none => heldAt s k
      | some r => if r.wikiId = wikiId ∧ r.isActive = true then
          disposedOf reason now (action r) (heldAt s k) else heldAt s k := by
  have hminds := minds_dispose reason now action
  have hnodup : ((FactIndex.findActiveInWiki s.facts wikiId).map FactRow.factId).Nodup :=
    s.facts.nodup.sublist (List.filter_sublist.map _)
  split
  · next hget =>
    refine hminds.get_foldl_of_notMem fun hk => ?_
    obtain ⟨x, hx, hid⟩ := List.mem_map.mp hk
    exact Table.get?_eq_none_iff.mp hget x (mem_findActiveInWiki.mp hx).1 hid
  · next r hget =>
    obtain ⟨hr, rfl⟩ := Table.get?_eq_some_iff.mp hget
    split_ifs with hlisted
    · exact hminds.get_foldl_of_mem hnodup (mem_findActiveInWiki.mpr ⟨hr, hlisted⟩)
    · refine hminds.get_foldl_of_notMem fun hk => hlisted ?_
      obtain ⟨x, hx, hid⟩ := List.mem_map.mp hk
      obtain ⟨hmem, hx⟩ := mem_findActiveInWiki.mp hx
      obtain rfl := Table.eq_of_key_eq hmem hr hid
      exact hx

/-- What one round leaves under an id. -/
lemma heldAt_disposeWiki (o : Order) (wikis : List WikiNode) (s : Store) (wikiId : Str)
    (k : FactId) :
    heldAt (disposeWiki o wikis s wikiId) k = left o wikis [wikiId] (heldAt s k) := by
  have hfirst : (heldAt s k).1 = s.facts.get? k := rfl
  unfold disposeWiki left fateOf
  rw [hfirst]
  split
  · refine Prod.ext ?_ ?_
    · change (FactIndex.markForgottenInWiki s.facts wikiId deleteReason o.now).get? k = _
      rw [FactIndex.markForgottenInWiki, Table.get?_update]
      cases hget : s.facts.get? k with
      | none => simp [heldAt, hget]
      | some r =>
        by_cases hwiki : r.wikiId = wikiId <;> cases hdeleted : r.deletedAt <;>
          simp [heldAt, hget, hwiki, hdeleted, disposedOf]
    · change s.queue.get? k = _
      cases hget : s.facts.get? k with
      | none => rfl
      | some r =>
        by_cases hwiki : r.wikiId = wikiId <;> cases hdeleted : r.deletedAt <;>
          simp [heldAt, hget, hwiki, hdeleted, disposedOf]
  · rw [heldAt_foldl_dispose]
    cases hget : s.facts.get? k with
    | none => rfl
    | some r =>
      by_cases hwiki : r.wikiId = wikiId <;> cases hactive : r.isActive <;>
        simp [hwiki, hactive]
  · rw [heldAt_foldl_dispose]
    cases hget : s.facts.get? k with
    | none => rfl
    | some r =>
      by_cases hwiki : r.wikiId = wikiId <;> cases hactive : r.isActive <;>
        simp [hwiki, hactive]

/-- A fact that was disposed of is not disposed of again. -/
lemma left_cons (wikiId : Str) (ids : List Str) (p : Held) :
    left o wikis ids (left o wikis [wikiId] p) = left o wikis (wikiId :: ids) p := by
  obtain ⟨r?, c⟩ := p
  cases r? with
  | none => rfl
  | some r =>
    by_cases hwiki : r.wikiId = wikiId
    · -- what is left of the fact, if anything, is a tombstone
      have hdone : ∀ x : FactRow, x.deletedAt.isSome = true → left o wikis ids (some x, c) =
          (some x, c) := by
        intro x hx
        obtain ⟨at?, hdeleted⟩ := Option.isSome_iff_exists.mp hx
        have hnone : fateOf o wikis x = none := by
          unfold fateOf
          split <;> simp [FactRow.isActive, hdeleted]
        simp [left, hnone]
      cases hfate : fateOf o wikis r with
      | none => simp [left, hwiki, hfate]
      | some action =>
        have hone : left o wikis [wikiId] (some r, c) =
            disposedOf deleteReason o.now action (some r, c) := by simp [left, hwiki, hfate]
        have hmore : left o wikis (wikiId :: ids) (some r, c) =
            disposedOf deleteReason o.now action (some r, c) := by simp [left, hwiki, hfate]
        rw [hone, hmore]
        cases hdeleted : r.deletedAt with
        | some at? =>
          have hsame : disposedOf deleteReason o.now action (some r, c) = (some r, c) := by
            simp [disposedOf, hdeleted]
          rw [hsame]
          exact hdone r (by simp [hdeleted])
        | none =>
          cases action with
          | tombstone =>
            have hgone : disposedOf deleteReason o.now .tombstone (some r, c) =
                (some (r.forgotten deleteReason o.now), c) := by simp [disposedOf, hdeleted]
            rw [hgone]
            exact hdone _ rfl
          | evacuate => simp [disposedOf, hdeleted, left]
    · have hother : left o wikis [wikiId] (some r, c) = (some r, c) := by simp [left, hwiki]
      rw [hother]
      simp [left, hwiki]

/-- How many facts of some wikis have a fate. -/
def fated (o : Order) (wikis : List WikiNode) (s : Store) (ids : List Str) (action : Action) : ℕ :=
  s.facts.rows.countP fun r => decide (r.wikiId ∈ ids) && decide (fateOf o wikis r = some action)

/-- A round leaves to count what is in the other wikis. -/
lemma fated_cons (s : Store) (wikiId : Str) (ids : List Str) (action : Action) :
    fated o wikis s (wikiId :: ids) action = fated o wikis s [wikiId] action +
      fated o wikis (disposeWiki o wikis s wikiId) ids action := by
  have hrest : fated o wikis (disposeWiki o wikis s wikiId) ids action =
      s.facts.rows.countP fun r => decide (r.wikiId ≠ wikiId) &&
        (decide (r.wikiId ∈ ids) && decide (fateOf o wikis r = some action)) := by
    refine Table.countP_eq_of_get? fun k => ?_
    have hheld := congrArg Prod.fst (heldAt_disposeWiki o wikis s wikiId k)
    change (disposeWiki o wikis s wikiId).facts.get? k = _ at hheld
    rw [hheld]
    have hfirst : (heldAt s k).1 = s.facts.get? k := rfl
    cases hget : s.facts.get? k with
    | none => simp [left, heldAt, hget]
    | some r =>
      by_cases hwiki : r.wikiId = wikiId
      · cases hfate : fateOf o wikis r with
        | none => simp [left, heldAt, hget, hwiki, hfate]
        | some a =>
          have hdead : ∀ now, fateOf o wikis (r.forgotten deleteReason now) = none := by
            intro now
            unfold fateOf
            split <;> simp [FactRow.isActive, FactRow.forgotten]
          have hlive : r.deletedAt = none := by
            unfold fateOf at hfate
            split at hfate <;> split_ifs at hfate with hlive
            · simpa using hlive
            · exact (isActive_iff.mp hlive).2
            · exact (isActive_iff.mp hlive).2
          cases a <;> simp [left, heldAt, hget, hwiki, hfate, disposedOf, hlive, hdead]
      · simp [left, heldAt, hget, hwiki]
  rw [hrest]
  have hnone : s.facts.rows.countP (fun _ => false) = 0 := by simp
  rw [fated, ← Nat.add_zero (s.facts.rows.countP _), ← hnone]
  refine List.countP_add_countP fun r _ => ?_
  by_cases hwiki : r.wikiId = wikiId
  · cases hfate : decide (fateOf o wikis r = some action) <;> simp [hwiki]
  · simp [hwiki]

/-- What one round counts. -/
lemma countWiki_eq (o : Order) (wikis : List WikiNode) (s : Store) (wikiId : Str)
    (report : WikiDeleteReport) :
    (countWiki o wikis s wikiId report).factsTombstoned =
      report.factsTombstoned + fated o wikis s [wikiId] .tombstone ∧
    (countWiki o wikis s wikiId report).factsEvacuated +
      (countWiki o wikis s wikiId report).factsUnplaced =
      report.factsEvacuated + report.factsUnplaced + fated o wikis s [wikiId] .evacuate := by
  have hlisted : ∀ p : FactRow → Bool, (FactIndex.findActiveInWiki s.facts wikiId).countP p =
      s.facts.rows.countP fun r => p r && (decide (r.wikiId = wikiId) && r.isActive) := by
    intro p
    rw [FactIndex.findActiveInWiki, List.countP_filter]
  cases hmode : o.mode with
  | senderKeyed =>
    have hfated : ∀ a, fated o wikis s [wikiId] a = (FactIndex.findActiveInWiki s.facts
        wikiId).countP fun row =>
          decideFact (responsible row) row.subjectId o.deleter wikis = a := by
      intro a
      rw [hlisted]
      refine List.countP_congr fun r _ => ?_
      cases hactive : r.isActive <;> simp [fateOf, hmode, hactive, and_comm]
    rw [hfated, hfated]
    simp only [countWiki, hmode, true_and]
    exact Nat.add_right_comm _ _ _
  | tombstoneAll =>
    have hfated : ∀ a, fated o wikis s [wikiId] a = s.facts.rows.countP fun r =>
        decide (Action.tombstone = a) && (decide (r.wikiId = wikiId) && r.deletedAt.isNone) := by
      intro a
      refine List.countP_congr fun r _ => ?_
      cases hdeleted : r.deletedAt <;> simp [fateOf, hmode, hdeleted, and_comm]
    rw [hfated, hfated]
    simp [countWiki, hmode]
  | dissolve =>
    have hfated : ∀ a, fated o wikis s [wikiId] a = (FactIndex.findActiveInWiki s.facts
        wikiId).countP fun _ => Action.evacuate = a := by
      intro a
      rw [hlisted]
      refine List.countP_congr fun r _ => ?_
      cases hactive : r.isActive <;> simp [fateOf, hmode, hactive, and_comm]
    rw [hfated, hfated]
    simp [countWiki, hmode, Nat.add_assoc]

/-- What the loop leaves, and what it counts. -/
lemma foldl_dropWiki (ds : List WikiNode) (w : Memory) (report : WikiDeleteReport) :
    let out := ds.foldl (dropWiki o) (w, report)
    let ids := ds.map WikiNode.wikiId
    (∀ k, heldAt out.1.store k = left o w.wikis ids (heldAt w.store k)) ∧
      out.1 = { w with
        store := out.1.store
        wikiSections := w.wikiSections.filter fun id => id ∉ ids
        smartWikis := w.smartWikis.filter fun id => id ∉ ids
        pageCard := w.pageCard.filter fun id => id ∉ ids
        linkKey := w.linkKey.filter fun id => id ∉ ids } ∧
      out.2.factsTombstoned = report.factsTombstoned + fated o w.wikis w.store ids .tombstone ∧
      out.2.factsEvacuated + out.2.factsUnplaced = report.factsEvacuated + report.factsUnplaced +
        fated o w.wikis w.store ids .evacuate := by
  induction ds generalizing w report with
  | nil =>
    have hnone : ∀ a, fated o w.wikis w.store [] a = 0 := by simp [fated]
    refine ⟨fun k => ?_, ?_, ?_, ?_⟩
    · rw [left]
      split <;> simp
    · simp
    · simp [hnone]
    · simp [hnone]
  | cons d ds ih =>
    obtain ⟨hheld, hrest, htombstoned, hback⟩ :=
      ih (dropWiki o (w, report) d).1 (dropWiki o (w, report) d).2
    obtain ⟨hfirst, hsecond⟩ := countWiki_eq o w.wikis w.store d.wikiId report
    have hwikis : (dropWiki o (w, report) d).1.wikis = w.wikis := rfl
    have hstore : (dropWiki o (w, report) d).1.store = disposeWiki o w.wikis w.store d.wikiId := rfl
    have htombstone : (dropWiki o (w, report) d).2.factsTombstoned =
        (countWiki o w.wikis w.store d.wikiId report).factsTombstoned := rfl
    have hevacuate : (dropWiki o (w, report) d).2.factsEvacuated +
        (dropWiki o (w, report) d).2.factsUnplaced =
          (countWiki o w.wikis w.store d.wikiId report).factsEvacuated +
            (countWiki o w.wikis w.store d.wikiId report).factsUnplaced := rfl
    rw [hwikis, hstore] at hheld htombstoned hback
    dsimp only
    rw [List.foldl_cons, List.map_cons]
    refine ⟨fun k => ?_, ?_, ?_, ?_⟩
    · rw [hheld, heldAt_disposeWiki, left_cons]
    · have hfilter : ∀ l : List Str, (l.filter fun id => id ≠ d.wikiId).filter
          (fun id => id ∉ ds.map WikiNode.wikiId) =
            l.filter fun id => id ∉ d.wikiId :: ds.map WikiNode.wikiId := by
        intro l
        rw [List.filter_filter]
        refine List.filter_congr fun id _ => ?_
        by_cases hid : id = d.wikiId <;> simp [hid]
      refine hrest.trans ?_
      rw [← hfilter, ← hfilter, ← hfilter, ← hfilter]
      rfl
    · refine htombstoned.trans ?_
      rw [htombstone, hfirst, fated_cons w.store d.wikiId (ds.map WikiNode.wikiId), Nat.add_assoc]
    · refine hback.trans ?_
      rw [hevacuate, hsecond, fated_cons w.store d.wikiId (ds.map WikiNode.wikiId), Nat.add_assoc]

/-- What a deletion does to the facts and to the derived indexes: what is not of the wikis that go
is as it was; of what is, every fact that stands is tombstoned where it is or waits in the queue
under its id, and nobody's contribution is destroyed by somebody else who may not. -/
structure Deleted (o : Order) (ids : List Str) (w w' : Memory) : Prop where
  outside : ∀ r ∈ w.store.facts, r.wikiId ∉ ids ∨ fateOf o w.wikis r = none →
    heldAt w'.store r.factId = heldAt w.store r.factId
  waiting : ∀ k, w.store.facts.get? k = none → heldAt w'.store k = heldAt w.store k
  tombstoned : ∀ r ∈ w.store.facts, r.wikiId ∈ ids → fateOf o w.wikis r = some .tombstone →
    heldAt w'.store r.factId =
      (some (r.forgotten deleteReason o.now), w.store.queue.get? r.factId)
  handedBack : ∀ r ∈ w.store.facts, r.wikiId ∈ ids → fateOf o w.wikis r = some .evacuate →
    w'.store.facts.get? r.factId = none ∧ CaptureBuffer.waitingRow w'.store.queue r.factId =
      some ((w.store.queue.get? r.factId).elim (r.rebuffered o.now) BufferedCapture.requeued)
  contributions : o.mode ≠ .tombstoneAll → ∀ r ∈ w.store.facts, r.wikiId ∈ ids →
    r.isActive = true → responsible r ≠ o.deleter →
      (existingHomeWiki w.wikis (responsible r)).isSome = true →
        (CaptureBuffer.waitingRow w'.store.queue r.factId).isSome = true
  emptied : ∀ r ∈ w'.store.facts, r.wikiId ∈ ids → r.isActive = false
  sections : w'.wikiSections = w.wikiSections.filter fun id => id ∉ ids
  smart : w'.smartWikis = w.smartWikis.filter fun id => id ∉ ids
  cards : w'.pageCard = w.pageCard.filter fun id => id ∉ ids
  keys : w'.linkKey = w.linkKey.filter fun id => id ∉ ids

lemma isNone_deletedAt_of_fateOf {r : FactRow} {a : Action} (h : fateOf o wikis r = some a) :
    r.deletedAt.isNone = true := by
  unfold fateOf at h
  split at h <;> split_ifs at h with hlive
  · exact hlive
  · simp [(isActive_iff.mp hlive).2]
  · simp [(isActive_iff.mp hlive).2]

lemma exists_fateOf (o : Order) (wikis : List WikiNode) {r : FactRow}
    (h : r.isActive = true) : ∃ a, fateOf o wikis r = some a := by
  have hlive : r.deletedAt.isNone = true := by simp [(isActive_iff.mp h).2]
  unfold fateOf
  split
  · exact ⟨_, if_pos hlive⟩
  · exact ⟨_, if_pos h⟩
  · exact ⟨_, if_pos h⟩

/-- Nothing that stands is left in the wikis that go. -/
lemma isActive_left {p : Held} {r : FactRow} (h : (left o wikis ids p).1 = some r)
    (hin : r.wikiId ∈ ids) : r.isActive = false := by
  obtain ⟨x?, c⟩ := p
  cases x? with
  | none => cases h
  | some x =>
    by_cases hx : x.wikiId ∈ ids
    · cases hfate : fateOf o wikis x with
      | none =>
        obtain rfl : x = r := by simpa [left, hx, hfate] using h
        by_contra hactive
        obtain ⟨a, ha⟩ := exists_fateOf o wikis (Bool.not_eq_false _ ▸ hactive)
        rw [ha] at hfate
        cases hfate
      | some a =>
        have hlive := isNone_deletedAt_of_fateOf hfate
        cases a with
        | tombstone =>
          obtain rfl : x.forgotten deleteReason o.now = r := by
            simpa [left, hx, hfate, disposedOf, hlive] using h
          exact isActive_forgotten _ _
        | evacuate => simp [left, hx, hfate, disposedOf, hlive] at h
    · obtain rfl : x = r := by simpa [left, hx] using h
      exact absurd hin hx

/-- What is held afterwards makes the deletion what it should be. -/
lemma deleted_of_left {w w' : Memory}
    (hheld : ∀ k, heldAt w'.store k = left o w.wikis ids (heldAt w.store k))
    (hsections : w'.wikiSections = w.wikiSections.filter fun id => id ∉ ids)
    (hsmart : w'.smartWikis = w.smartWikis.filter fun id => id ∉ ids)
    (hcards : w'.pageCard = w.pageCard.filter fun id => id ∉ ids)
    (hkeys : w'.linkKey = w.linkKey.filter fun id => id ∉ ids) : Deleted o ids w w' := by
  have hrow : ∀ r ∈ w.store.facts, (heldAt w.store r.factId) =
      (some r, w.store.queue.get? r.factId) := fun r hr =>
    Prod.ext (Table.get?_eq_some_iff.mpr ⟨hr, rfl⟩) rfl
  have hback : ∀ r ∈ w.store.facts, r.wikiId ∈ ids → fateOf o w.wikis r = some .evacuate →
      w'.store.facts.get? r.factId = none ∧ CaptureBuffer.waitingRow w'.store.queue r.factId =
        some ((w.store.queue.get? r.factId).elim (r.rebuffered o.now)
          BufferedCapture.requeued) := by
    intro r hr hin hfate
    have hlive := isNone_deletedAt_of_fateOf hfate
    have hafter := hheld r.factId
    rw [hrow r hr, left] at hafter
    simp only [hin, if_true, hfate, Option.elim_some, disposedOf, hlive] at hafter
    refine ⟨congrArg Prod.fst hafter, ?_⟩
    have hqueue : w'.store.queue.get? r.factId = _ := congrArg Prod.snd hafter
    rw [CaptureBuffer.waitingRow, hqueue]
    refine Option.filter_some_pos ?_
    cases w.store.queue.get? r.factId <;> rfl
  refine ⟨?_, ?_, ?_, hback, ?_, ?_, hsections, hsmart, hcards, hkeys⟩
  · intro r hr hout
    rw [hheld, hrow r hr, left]
    dsimp only
    split_ifs with hin
    · rw [hout.resolve_left (not_not.mpr hin)]
      rfl
    · rfl
  · intro k hk
    have hnone : (heldAt w.store k).1 = none := hk
    rw [hheld, left, hnone]
  · intro r hr hin hfate
    have hlive := isNone_deletedAt_of_fateOf hfate
    rw [hheld, hrow r hr, left]
    simp only [hin, if_true, hfate, Option.elim_some, disposedOf, hlive]
  · intro hmode r hr hin hactive hforeign hhome
    have hfate : fateOf o w.wikis r = some .evacuate := by
      unfold fateOf
      split
      · next heq => exact absurd heq hmode
      · rw [if_pos hactive]
      · rw [if_pos hactive, decideFact, if_neg hforeign, if_pos hhome]
    rw [(hback r hr hin hfate).2]
    rfl
  · intro r hr hin
    have hthere : (heldAt w'.store r.factId).1 = some r := Table.get?_eq_some_iff.mpr ⟨hr, rfl⟩
    rw [hheld] at hthere
    exact isActive_left hthere hin

/-- A deletion is refused and changes nothing, or it does to the facts what it should; its report
counts them, and when the directory is gone so are the wikis. -/
theorem deleteWikiSubtree_disposes (roll : Roll) (w : Memory) (o : Order) :
    (∃ e, deleteWikiSubtree roll w o = (w, .error e)) ∨
    ∃ root, locate w.wikis o.target = some root ∧
      Deleted o ((collectSubtree w.wikis root).map WikiNode.wikiId) w
        (deleteWikiSubtree roll w o).1 ∧
      (o.huskGone = false → (deleteWikiSubtree roll w o).1.wikis = w.wikis) ∧
      (o.huskGone = true → ∃ report, (deleteWikiSubtree roll w o).2 = .ok report ∧
        (deleteWikiSubtree roll w o).1.wikis =
          w.wikis.filter (fun d => d ∉ collectSubtree w.wikis root) ∧
        report.factsTombstoned = fated o w.wikis w.store
          ((collectSubtree w.wikis root).map WikiNode.wikiId) .tombstone ∧
        report.factsEvacuated + report.factsUnplaced = fated o w.wikis w.store
          ((collectSubtree w.wikis root).map WikiNode.wikiId) .evacuate) := by
  unfold deleteWikiSubtree
  split
  · exact .inl ⟨_, rfl⟩
  next root hroot =>
  dsimp only
  split_ifs with hliving
  · exact .inl ⟨_, rfl⟩
  refine .inr ⟨root, hroot, ?_⟩
  obtain ⟨hheld, hrest, htombstoned, hback⟩ := foldl_dropWiki (o := o)
    (collectSubtree w.wikis root) w
    { wikiId := o.target, wikisRemoved := (collectSubtree w.wikis root).length }
  dsimp only at hheld hrest htombstoned hback
  generalize (collectSubtree w.wikis root).foldl (dropWiki o) (w,
    { wikiId := o.target, wikisRemoved := (collectSubtree w.wikis root).length }) = out at *
  have hwikis : out.1.wikis = w.wikis := by rw [hrest]
  have hdeleted : Deleted o ((collectSubtree w.wikis root).map WikiNode.wikiId) w out.1 :=
    deleted_of_left hheld (by rw [hrest]) (by rw [hrest]) (by rw [hrest]) (by rw [hrest])
  have hleft : (out.1.wikis.filter fun d => !root.relDir.isPrefixOf d.relDir) =
      w.wikis.filter fun d => d ∉ collectSubtree w.wikis root := by
    rw [hwikis]
    refine List.filter_congr fun d hd => ?_
    cases hunder : root.relDir.isPrefixOf d.relDir <;> simp [collectSubtree, hd, hunder]
  unfold dropHusk
  dsimp only
  split
  · next _ _ hhusk hgone =>
    exact ⟨⟨hdeleted.1, hdeleted.2, hdeleted.3, hdeleted.4, hdeleted.5, hdeleted.6, hdeleted.7,
      hdeleted.8, hdeleted.9, hdeleted.10⟩, by simp [hgone],
      fun _ => ⟨_, rfl, hleft, by simpa using htombstoned, by simpa using hback⟩⟩
  · next _ _ hhusk hgone =>
    exact ⟨⟨hdeleted.1, hdeleted.2, hdeleted.3, hdeleted.4, hdeleted.5, hdeleted.6, hdeleted.7,
      hdeleted.8, hdeleted.9, hdeleted.10⟩, by simp [hgone],
      fun _ => ⟨_, rfl, hleft, by simpa using htombstoned, by simpa using hback⟩⟩
  · next _ _ hhusk hgone =>
    exact ⟨hdeleted, fun _ => hwikis, by simp [hgone]⟩
  · next _ _ hhusk hgone =>
    exact ⟨hdeleted, fun _ => hwikis, by simp [hgone]⟩

/-- Deleting a page disposes of the facts that stand on it and of nothing else, by the rule for one
fact, and the report counts each of them once. -/
theorem deletePageDirect_disposes {s s' : Store} {sourcePath : Str} {deleter : Principal}
    {mode : DeletionMode} {out : PageDeletionOutcome}
    (h : deletePageDirect wikis s sourcePath deleter reason now mode = some (s', out)) :
    (∀ k, (∀ r, s.facts.get? k = some r → r.sourcePath ≠ sourcePath ∨ r.isActive = false) →
      heldAt s' k = heldAt s k) ∧
    (∀ r ∈ s.facts, r.sourcePath = sourcePath → r.isActive = true →
      heldAt s' r.factId = disposedOf reason now (if mode = .tombstoneAll then .tombstone
        else decideFact (responsible r) r.subjectId deleter wikis) (heldAt s r.factId)) ∧
    out.factsTombstoned + out.factsEvacuated =
      s.facts.rows.countP fun r => decide (r.sourcePath = sourcePath) && r.isActive := by
  have hlisted : ∀ r, r ∈ (s.facts.rows.filter fun r =>
      decide (r.sourcePath = sourcePath) && r.isActive) ↔
        r ∈ s.facts ∧ r.sourcePath = sourcePath ∧ r.isActive = true := by
    simp [Table.mem_iff]
  have hnodup : ((s.facts.rows.filter fun r =>
      decide (r.sourcePath = sourcePath) && r.isActive).map FactRow.factId).Nodup :=
    s.facts.nodup.sublist (List.filter_sublist.map _)
  have hloop : ∀ action : FactRow → Action,
      s' = (s.facts.rows.filter fun r => decide (r.sourcePath = sourcePath) && r.isActive).foldl
        (dispose reason now action) s →
      (∀ k, (∀ r, s.facts.get? k = some r → r.sourcePath ≠ sourcePath ∨ r.isActive = false) →
        heldAt s' k = heldAt s k) ∧
      ∀ r ∈ s.facts, r.sourcePath = sourcePath → r.isActive = true →
        heldAt s' r.factId = disposedOf reason now (action r) (heldAt s r.factId) := by
    rintro action rfl
    refine ⟨fun k hk => ?_, fun r hr hpath hactive => ?_⟩
    · refine (minds_dispose reason now action).get_foldl_of_notMem fun hin => ?_
      obtain ⟨r, hr, rfl⟩ := List.mem_map.mp hin
      obtain ⟨hr, hpath, hactive⟩ := (hlisted r).mp hr
      rcases hk r (Table.get?_eq_some_iff.mpr ⟨hr, rfl⟩) with hother | hgone
      · exact hother hpath
      · rw [hactive] at hgone
        cases hgone
    · exact (minds_dispose reason now action).get_foldl_of_mem hnodup
        ((hlisted r).mpr ⟨hr, hpath, hactive⟩)
  have hcount : ∀ action : FactRow → Action, ∀ rows : List FactRow,
      (rows.countP fun row => action row = .tombstone) +
        (rows.countP fun row => action row = .evacuate) = rows.length := by
    intro action rows
    rw [← List.countP_true, ← Nat.add_zero (rows.countP fun _ => true)]
    have hnone : rows.countP (fun _ => false) = 0 := by simp
    rw [← hnone]
    refine List.countP_add_countP fun r _ => ?_
    cases action r <;> simp
  have hall := List.countP_eq_length_filter
    (p := fun r : FactRow => decide (r.sourcePath = sourcePath) && r.isActive) (l := s.facts.rows)
  unfold deletePageDirect at h
  cases mode with
  | senderKeyed =>
    obtain ⟨rfl, rfl⟩ := Prod.mk.inj (Option.some.inj h)
    obtain ⟨hother, hown⟩ := hloop _ rfl
    exact ⟨hother, hown, (hcount _ _).trans hall.symm⟩
  | tombstoneAll =>
    obtain ⟨rfl, rfl⟩ := Prod.mk.inj (Option.some.inj h)
    obtain ⟨hother, hown⟩ := hloop _ rfl
    exact ⟨hother, hown, (hcount _ _).trans hall.symm⟩
  | dissolve =>
    dsimp only at h
    split_ifs at h with hempty
    obtain ⟨rfl, rfl⟩ := Prod.mk.inj (Option.some.inj h)
    refine ⟨fun _ _ => rfl, fun r hr hpath hactive => ?_, ?_⟩
    · have hin := (hlisted r).mpr ⟨hr, hpath, hactive⟩
      rw [List.isEmpty_iff.mp hempty] at hin
      cases hin
    · rw [hall, List.isEmpty_iff.mp hempty]
      rfl

end Laws

end WikiDelete

end Mwe
