import MweCore.Gdpr.Forget

/-!
# What an erasure leaves of one row

No statement of the pass lets one row bear on another, but for the sweep of a page on which the
region of a destroyed fact was cut.  So what is under an id afterwards is a function of what was
there: `get?_settled` says it of the facts about the person, `heldAt_evacuated` of the facts that
leave the wikis, `get?_strikeFromQueue_forgetCaptures` of the queue, and `heldAt_forgetUser` of the
whole pass.
-/

namespace Mwe

open Str Sql

namespace Gdpr

variable {a : Answers} {hers : List Str} {now userId : Str}

/-! ## The facts about the person -/

/-- When one fact is destroyed, another is found missing on its page. -/
def Sweeps (a : Answers) (hers : List Str) (userId : Str) (x r : FactRow) : Prop :=
  fateOf x (.user userId) = .destroy ∧ x.wikiId ∉ hers ∧ r.isActive = true ∧
    r.sourcePath = x.sourcePath ∧ r.factId ∈ a.missing x.factId

/-- One of some facts sweeps another when it is destroyed. -/
def SweptBy (a : Answers) (hers : List Str) (userId : Str) (xs : List FactRow) (r : FactRow) :
    Prop :=
  ∃ x ∈ xs, Sweeps a hers userId x r

/-- A row as a sweep leaves it. -/
def swept (now : Str) (r : FactRow) : FactRow :=
  r.forgotten FactIndex.reasonMarkerRemoved now

lemma isActive_iff {r : FactRow} :
    r.isActive = true ↔ r.supersededAt = none ∧ r.deletedAt = none := by
  simp [FactRow.isActive]

@[simp] lemma deletedAt_forgotten (reason : Str) (r : FactRow) :
    (r.forgotten reason now).deletedAt = some now := rfl

@[simp] lemma isActive_forgotten (reason : Str) (r : FactRow) :
    (r.forgotten reason now).isActive = false := by
  simp [FactRow.isActive, FactRow.forgotten]

lemma not_sweeps_forgotten (x r : FactRow) (reason : Str) :
    ¬ Sweeps a hers userId x (r.forgotten reason now) := by
  rintro ⟨-, -, hactive, -⟩
  simp at hactive

lemma not_sweptBy_forgotten (xs : List FactRow) (r : FactRow) (reason : Str) :
    ¬ SweptBy a hers userId xs (r.forgotten reason now) := by
  rintro ⟨x, -, hx⟩
  exact not_sweeps_forgotten x r reason hx

lemma sweptBy_retargeted_iff {xs : List FactRow} {r : FactRow} {keeper : Principal} :
    SweptBy a hers userId xs (r.retargeted keeper userId now) ↔ SweptBy a hers userId xs r :=
  Iff.rfl

section

open scoped Classical

/-- A row that is not settled itself, after another was. -/
lemma get?_settle_of_ne {facts : FactTable} {x : FactRow} {k : FactId} (hk : x.factId ≠ k) :
    (settle a hers now userId facts x).get? k = (facts.get? k).map fun r =>
      if Sweeps a hers userId x r then swept now r else r := by
  have hkeep : ∀ {set : FactRow → FactRow} {hset : ∀ r, (set r).factId = r.factId},
      (FactIndex.updateActive facts x.factId set hset).get? k = facts.get? k := by
    intro set hset
    rw [FactIndex.get?_updateActive]
    simp [Ne.symm hk]
  have herase : ∀ facts : FactTable, (FactIndex.erase facts x.factId).get? k = facts.get? k := by
    intro facts
    rw [FactIndex.erase, Table.get?_delete]
    cases hget : facts.get? k with
    | none => rfl
    | some r =>
      obtain ⟨-, rfl⟩ := Table.get?_eq_some_iff.mp hget
      exact Option.filter_some_pos (by simp [Ne.symm hk])
  unfold settle
  cases hfate : fateOf x (.user userId) with
  | handOver keeper => simp [FactIndex.retargetSubject, hkeep, Sweeps, hfate]
  | disown => simp [Sweeps, hfate]
  | untouched => simp [Sweeps, hfate]
  | destroy =>
    have hsel : ∀ r : FactRow, x.wikiId ∉ hers →
        ((r.isActive && decide (r.sourcePath = x.sourcePath) &&
          decide (r.factId ∈ a.missing x.factId)) = true ↔ Sweeps a hers userId x r) := by
      intro r hhers
      simp [Sweeps, hfate, hhers, and_assoc]
    simp only [tombstoneFact, FactIndex.markForgotten]
    split_ifs with hhers hcut
    · simp [herase, hkeep, Sweeps, hhers]
    · rw [herase, FactIndex.sweepOrphans, Table.get?_update, hkeep]
      exact Option.map_congr fun r _ => if_congr (hsel r hhers) rfl rfl
    · rw [FactIndex.sweepOrphans, Table.get?_update, hkeep]
      exact Option.map_congr fun r _ => if_congr (hsel r hhers) rfl rfl

/-- The same after any number of others. -/
lemma get?_foldl_settle_of_notMem {xs : List FactRow} {facts : FactTable} {k : FactId}
    (hk : ∀ x ∈ xs, x.factId ≠ k) :
    (xs.foldl (settle a hers now userId) facts).get? k = (facts.get? k).map fun r =>
      if SweptBy a hers userId xs r then swept now r else r := by
  induction xs generalizing facts with
  | nil => simp [SweptBy]
  | cons x xs ih =>
    rw [List.foldl_cons, ih fun y hy => hk y (by simp [hy]), get?_settle_of_ne (hk x (by simp)),
      Option.map_map]
    refine Option.map_congr fun r _ => ?_
    by_cases hx : Sweeps a hers userId x r
    · have hstays : ¬ SweptBy a hers userId xs (swept now r) := not_sweptBy_forgotten xs r _
      have hboth : SweptBy a hers userId (x :: xs) r := ⟨x, by simp, hx⟩
      simp [hx, hstays, hboth]
    · have hsame : SweptBy a hers userId (x :: xs) r ↔ SweptBy a hers userId xs r := by
        simp [SweptBy, hx]
      simp [hx, hsame]

/-- The row that is settled. -/
lemma get?_settle_self {facts : FactTable} {x r : FactRow} (h : facts.get? x.factId = some r) :
    (settle a hers now userId facts x).get? x.factId =
      match fateOf x (.user userId) with
      | .handOver keeper =>
        some (if r.deletedAt = none then r.retargeted keeper userId now else r)
      | .destroy => if x.wikiId ∈ hers ∨ a.cut x.factId = true then none
          else some (if r.deletedAt = none then r.forgotten forgetReason now else r)
      | _ => some r := by
  have herase : ∀ facts : FactTable, (FactIndex.erase facts x.factId).get? x.factId = none := by
    intro facts
    rw [Table.get?_eq_none_iff]
    intro y hy hid
    have hout := (Table.mem_delete_iff.mp hy).2
    simp [hid] at hout
  unfold settle
  cases hfate : fateOf x (.user userId) with
  | handOver keeper => simp [FactIndex.retargetSubject, FactIndex.get?_updateActive, h]
  | disown => exact h
  | untouched => exact h
  | destroy =>
    simp only [tombstoneFact, FactIndex.markForgotten]
    by_cases hhers : x.wikiId ∈ hers
    · rw [if_pos hhers, if_pos (Or.inl hhers)]
      exact herase _
    by_cases hcut : a.cut x.factId = true
    · rw [if_neg hhers, if_pos hcut, if_pos (Or.inr hcut)]
      exact herase _
    · have hinactive : (if r.deletedAt = none then r.forgotten forgetReason now else r).isActive =
          false := by
        split_ifs with hdeleted
        · exact isActive_forgotten _ _
        · rw [Bool.eq_false_iff]
          exact fun hactive => hdeleted (isActive_iff.mp hactive).2
      rw [if_neg hhers, if_neg hcut, if_neg (by tauto), FactIndex.sweepOrphans, Table.get?_update,
        FactIndex.get?_updateActive, h]
      -- a row that was just tombstoned is not swept
      simp [hinactive]

/-- The facts about the person that are older than one of them. -/
def earlier (a : Answers) (userId : Str) (facts : FactTable) (r : FactRow) : List FactRow :=
  (findActiveBySubject a facts (.user userId)).takeWhile fun x => x.factId ≠ r.factId

/-- The facts about the person that are younger than one of them. -/
def later (a : Answers) (userId : Str) (facts : FactTable) (r : FactRow) : List FactRow :=
  ((findActiveBySubject a facts (.user userId)).dropWhile fun x => x.factId ≠ r.factId).tail

lemma mem_findActiveBySubject_iff {facts : FactTable} {subject : Principal} {r : FactRow} :
    r ∈ findActiveBySubject a facts subject ↔
      r ∈ facts ∧ r.subjectId = subject ∧ r.isActive = true := by
  simp [findActiveBySubject, Table.mem_iff]

lemma nodup_findActiveBySubject (facts : FactTable) (subject : Principal) :
    ((findActiveBySubject a facts subject).map FactRow.factId).Nodup := by
  have hperm := (List.perm_insertionSort (fun r r' : FactRow =>
    a.createdAt r.factId ≤ a.createdAt r'.factId) (facts.rows.filter fun r =>
      decide (r.subjectId = subject) && r.isActive)).map FactRow.factId
  exact hperm.nodup_iff.mpr (facts.nodup.sublist (List.filter_sublist.map FactRow.factId))

/-- A fact about the person stands between those that are older and those that are younger. -/
lemma findActiveBySubject_split {facts : FactTable} {r : FactRow}
    (h : r ∈ findActiveBySubject a facts (.user userId)) :
    findActiveBySubject a facts (.user userId) =
        earlier a userId facts r ++ r :: later a userId facts r ∧
      (∀ x ∈ earlier a userId facts r, x.factId ≠ r.factId) ∧
      ∀ x ∈ later a userId facts r, x.factId ≠ r.factId := by
  have hnodup := @nodup_findActiveBySubject a facts (.user userId)
  obtain ⟨before, after, hsplit⟩ := List.mem_iff_append.mp h
  rw [hsplit, List.map_append, List.map_cons, List.nodup_append] at hnodup
  have hbefore : ∀ x ∈ before, x.factId ≠ r.factId := by
    intro x hx
    exact hnodup.2.2 x.factId (List.mem_map_of_mem hx) r.factId (by simp)
  have hafter : ∀ x ∈ after, x.factId ≠ r.factId := by
    intro x hx hid
    refine (List.nodup_cons.mp hnodup.2.1).1 ?_
    rw [← hid]
    exact List.mem_map_of_mem hx
  have htake : earlier a userId facts r = before := by
    rw [earlier, hsplit, List.takeWhile_append_of_pos (by simpa using hbefore)]
    simp
  have hdrop : later a userId facts r = after := by
    rw [later, hsplit, List.dropWhile_append_of_pos (by simpa using hbefore)]
    simp
  rw [htake, hdrop]
  exact ⟨hsplit, hbefore, hafter⟩

/-- What the first step leaves of a fact. -/
noncomputable def settled (a : Answers) (hers : List Str) (now userId : Str) (facts : FactTable)
    (r : FactRow) : Option FactRow :=
  if r.subjectId = .user userId ∧ r.isActive = true then
    match fateOf r (.user userId) with
    | .handOver keeper =>
      if SweptBy a hers userId (earlier a userId facts r) r then some (swept now r)
      else if SweptBy a hers userId (later a userId facts r) r then
        some (swept now (r.retargeted keeper userId now))
      else some (r.retargeted keeper userId now)
    | _ =>
      if r.wikiId ∈ hers ∨ a.cut r.factId = true then none
      else if SweptBy a hers userId (earlier a userId facts r) r then some (swept now r)
      else some (r.forgotten forgetReason now)
  else if SweptBy a hers userId (findActiveBySubject a facts (.user userId)) r then
    some (swept now r)
  else some r

/-- A fact about the person is destroyed or handed over. -/
lemma fateOf_of_subject {r : FactRow} {gone : Principal} (h : r.subjectId = gone) :
    fateOf r gone = .destroy ∨ ∃ keeper, fateOf r gone = .handOver keeper ∧
      r.senderId = some keeper ∧ keeper ≠ gone ∧ keeper ≠ removedSender := by
  unfold fateOf
  rw [if_pos h]
  split_ifs
  · exact Or.inl rfl
  · cases hkeeper : r.senderId.filter fun s => s ≠ gone && s ≠ removedSender with
    | none => exact Or.inl rfl
    | some keeper =>
      obtain ⟨hsender, hne⟩ := Option.filter_eq_some_iff.mp hkeeper
      simp only [Bool.and_eq_true, decide_eq_true_eq] at hne
      exact Or.inr ⟨keeper, rfl, hsender, hne⟩

/-- The first step. -/
lemma get?_settled (facts : FactTable) (k : FactId) :
    ((findActiveBySubject a facts (.user userId)).foldl (settle a hers now userId) facts).get? k =
      (facts.get? k).bind (settled a hers now userId facts) := by
  cases hget : facts.get? k with
  | none =>
    rw [get?_foldl_settle_of_notMem, hget]
    · rfl
    · intro x hx hid
      rw [Table.get?_eq_none_iff] at hget
      exact hget x (mem_findActiveBySubject_iff.mp hx).1 hid
  | some r =>
    obtain ⟨hmem, rfl⟩ := Table.get?_eq_some_iff.mp hget
    rw [Option.bind_some]
    unfold settled
    by_cases habout : r.subjectId = .user userId ∧ r.isActive = true
    · have hlisted : r ∈ findActiveBySubject a facts (.user userId) :=
        mem_findActiveBySubject_iff.mpr ⟨hmem, habout⟩
      obtain ⟨hsplit, hearlier, hlater⟩ := findActiveBySubject_split hlisted
      have hfold : (findActiveBySubject a facts (.user userId)).foldl (settle a hers now userId)
          facts = (later a userId facts r).foldl (settle a hers now userId)
            (settle a hers now userId ((earlier a userId facts r).foldl
              (settle a hers now userId) facts) r) := by
        conv_lhs => rw [hsplit]
        rw [List.foldl_append, List.foldl_cons]
      have hbefore := @get?_foldl_settle_of_notMem a hers now userId _ facts r.factId hearlier
      rw [hget, Option.map_some] at hbefore
      have hactive : r.deletedAt = none := (isActive_iff.mp habout.2).2
      rw [hfold, get?_foldl_settle_of_notMem hlater, get?_settle_self hbefore, if_pos habout]
      by_cases hswept : SweptBy a hers userId (earlier a userId facts r) r
      · have hstays := @not_sweptBy_forgotten a hers now userId (later a userId facts r) r
          FactIndex.reasonMarkerRemoved
        rcases fateOf_of_subject habout.1 with hfate | ⟨keeper, hfate, -⟩
        · by_cases hout : r.wikiId ∈ hers ∨ a.cut r.factId = true
          · simp [hfate, hout]
          · simp [hfate, hout, hswept, swept, hstays]
        · simp [hfate, hswept, swept, hstays]
      · have hstays := @not_sweptBy_forgotten a hers now userId (later a userId facts r) r
          forgetReason
        rcases fateOf_of_subject habout.1 with hfate | ⟨keeper, hfate, -⟩
        · by_cases hout : r.wikiId ∈ hers ∨ a.cut r.factId = true
          · simp [hfate, hout]
          · simp [hfate, hout, hswept, hactive, hstays]
        · by_cases hafter : SweptBy a hers userId (later a userId facts r) r
          · simp [hfate, hswept, hactive, sweptBy_retargeted_iff, hafter]
          · simp [hfate, hswept, hactive, sweptBy_retargeted_iff, hafter]
    · have hother : ∀ x ∈ findActiveBySubject a facts (.user userId), x.factId ≠ r.factId := by
        intro x hx hid
        obtain ⟨hx, hsubject, hactive⟩ := mem_findActiveBySubject_iff.mp hx
        obtain rfl := Table.eq_of_key_eq hx hmem hid
        exact habout ⟨hsubject, hactive⟩
      rw [get?_foldl_settle_of_notMem hother, hget, Option.map_some, if_neg habout]
      split_ifs <;> rfl

end

/-! ## The author and the audience -/

/-- A row once the person is neither its author nor in its audience. -/
def cleansed (gone : Principal) (now : Str) (r : FactRow) : FactRow :=
  let r := if r.senderId = some gone ∧ r.deletedAt = none then r.resent removedSender now else r
  if r.deletedAt = none ∧ gone ∈ r.allowIds then r.struck gone now else r

/-- The second step and the third. -/
lemma get?_cleansed (facts : FactTable) (gone : Principal) (k : FactId) :
    (FactIndex.strikeFromAllow (FactIndex.replaceSender facts gone removedSender now) gone now).get?
      k = (facts.get? k).map (cleansed gone now) := by
  rw [FactIndex.strikeFromAllow, Table.get?_update, FactIndex.replaceSender, Table.get?_update,
    Option.map_map]
  refine Option.map_congr fun r _ => ?_
  simp [cleansed]

/-- A tombstoned row is not touched. -/
lemma cleansed_of_deleted {gone : Principal} {r : FactRow} (h : r.deletedAt ≠ none) :
    cleansed gone now r = r := by
  simp [cleansed, h]

/-- What the two steps keep. -/
lemma cleansed_spec (gone : Principal) (now : Str) (r : FactRow) :
    (cleansed gone now r).factId = r.factId ∧ (cleansed gone now r).wikiId = r.wikiId ∧
      (cleansed gone now r).text = r.text ∧ (cleansed gone now r).subjectId = r.subjectId ∧
      (cleansed gone now r).excludedIds = r.excludedIds ∧
      (cleansed gone now r).supersededAt = r.supersededAt ∧
      (cleansed gone now r).deletedAt = r.deletedAt := by
  unfold cleansed
  dsimp only
  split_ifs <;> simp [FactRow.resent, FactRow.struck]

/-- What the two steps leave of the author and the audience. -/
lemma cleansed_of_not_deleted {gone : Principal} {r : FactRow} (h : r.deletedAt = none) :
    (cleansed gone now r).senderId =
        (if r.senderId = some gone then some removedSender else r.senderId) ∧
      (cleansed gone now r).allowIds = r.allowIds.filter fun p => p ≠ gone := by
  have hallow : ∀ allow : List Principal, gone ∉ allow →
      allow.filter (fun p => decide (p ≠ gone)) = allow := by
    intro allow hnot
    rw [List.filter_eq_self]
    intro p hp
    exact decide_eq_true fun heq => hnot (heq ▸ hp)
  unfold cleansed
  by_cases hsender : r.senderId = some gone
  · by_cases hmem : gone ∈ r.allowIds
    · simp [h, hsender, hmem, FactRow.resent, FactRow.struck]
    · simpa [h, hsender, hmem, FactRow.resent] using (hallow _ hmem).symm
  · by_cases hmem : gone ∈ r.allowIds
    · simp [h, hsender, hmem, FactRow.struck]
    · simpa [h, hsender, hmem] using (hallow _ hmem).symm

/-! ## Out of the wikis -/

variable {wikis : List WikiNode}

/-- Where a fact moves to, unless it goes back to the queue. -/
def landing (a : Answers) (hers : List Str) (wikis : List WikiNode) (x : FactRow) :
    Option (Str × Str) :=
  (destinationWiki hers wikis x.subjectId).bind fun dest =>
    (a.refiled x.factId).map fun path => (dest, path)

lemma relocate_eq (s : Store) (x : FactRow) : relocate a hers now wikis s x =
    match landing a hers wikis x with
    | some (dest, path) =>
      { s with facts := FactIndex.moveToWiki s.facts x.factId dest path now }
    | none => (s.rebufferFact x.factId now).2 := by
  unfold relocate landing
  cases destinationWiki hers wikis x.subjectId <;> cases a.refiled x.factId <;> rfl

/-- A fact does not move to a wiki that goes. -/
lemma landing_notMem {x : FactRow} {dest path : Str}
    (h : landing a hers wikis x = some (dest, path)) : dest ∉ hers := by
  obtain ⟨dest', hdest, hpath⟩ := Option.bind_eq_some_iff.mp h
  obtain ⟨path', -, hpair⟩ := Option.map_eq_some_iff.mp hpath
  obtain ⟨rfl, rfl⟩ := Prod.mk.inj hpair
  obtain ⟨id, -, hid⟩ := Option.bind_eq_some_iff.mp hdest
  split_ifs at hid with hhers
  obtain ⟨d, hd, hd'⟩ := Option.bind_eq_some_iff.mp hid
  obtain ⟨wiki, hwiki, hlocate⟩ := Option.bind_eq_some_iff.mp hd
  split_ifs at hd'
  obtain rfl := Option.some.inj hd'
  have hval : wiki.val = id := by
    cases hparse : WikiId.parse id with
    | error e =>
      rw [hparse] at hwiki
      cases hwiki
    | ok parsed =>
      rw [hparse] at hwiki
      obtain rfl : parsed = wiki := Option.some.inj hwiki
      exact WikiId.val_of_parse hparse
  have hfound : d.wikiId = wiki.val := by simpa using List.find?_some hlocate
  rwa [hfound, hval]

/-- A fact on its way out of a wiki. -/
def evacuated (a : Answers) (hers : List Str) (now : Str) (wikis : List WikiNode) (x : FactRow) :
    Option FactRow :=
  (landing a hers wikis x).map fun l => x.moved l.1 l.2 now

/-- What stands in the queue under the id of a fact on its way out of a wiki. -/
def requeuedAs (a : Answers) (hers : List Str) (now : Str) (wikis : List WikiNode) (x : FactRow)
    (c : Option BufferedCapture) : Option BufferedCapture :=
  if (landing a hers wikis x).isSome then c
  else some (c.elim (x.rebuffered now) BufferedCapture.requeued)

lemma get?_relocate_of_ne {s : Store} {x : FactRow} {k : FactId} (hk : x.factId ≠ k) :
    (relocate a hers now wikis s x).facts.get? k = s.facts.get? k ∧
      (relocate a hers now wikis s x).queue.get? k = s.queue.get? k := by
  have hmap : ∀ {sel : FactRow → Bool} {set : FactRow → FactRow}
      (hset : ∀ r, (set r).factId = r.factId), (∀ r, sel r = true → r.factId = x.factId) →
      (s.facts.update sel set hset).get? k = s.facts.get? k := by
    intro sel set hset hsel
    rw [Table.get?_update]
    cases hget : s.facts.get? k with
    | none => rfl
    | some r =>
      obtain ⟨-, rfl⟩ := Table.get?_eq_some_iff.mp hget
      rw [Option.map_some, if_neg fun h => hk (hsel r h).symm]
  rw [relocate_eq]
  split
  · next dest path _ =>
    refine ⟨hmap (FactRow.factId_moved dest path now) ?_, rfl⟩
    intro r hr
    rw [Bool.and_eq_true] at hr
    simpa using hr.1
  · unfold Store.rebufferFact
    split
    · exact ⟨rfl, rfl⟩
    · next row hrow =>
      obtain ⟨-, hid, -⟩ := FactIndex.activeRow_eq_some_iff.mp hrow
      constructor
      · simp only
        rw [Table.get?_delete]
        cases hget : s.facts.get? k with
        | none => rfl
        | some r =>
          obtain ⟨-, rfl⟩ := Table.get?_eq_some_iff.mp hget
          exact Option.filter_some_pos (by simp [Ne.symm hk])
      · simp only
        rw [Table.get?_upsert, if_neg (by simpa [hid] using hk)]

lemma get?_relocate_self {s : Store} {x : FactRow} (h : s.facts.get? x.factId = some x)
    (hactive : x.isActive = true) :
    (relocate a hers now wikis s x).facts.get? x.factId = evacuated a hers now wikis x ∧
      (relocate a hers now wikis s x).queue.get? x.factId =
        requeuedAs a hers now wikis x (s.queue.get? x.factId) := by
  rw [relocate_eq, evacuated, requeuedAs]
  cases hlanding : landing a hers wikis x with
  | some l =>
    obtain ⟨dest, path⟩ := l
    simp [FactIndex.moveToWiki, Table.get?_update, h, hactive]
  | none =>
    obtain ⟨hmem, -⟩ := Table.get?_eq_some_iff.mp h
    have hrow : FactIndex.activeRow s.facts x.factId = some x :=
      FactIndex.activeRow_eq_some_iff.mpr ⟨hmem, rfl, (isActive_iff.mp hactive).2⟩
    simp only [Store.rebufferFact, hrow]
    constructor
    · rw [Table.get?_delete, h]
      simp
    · rw [Table.get?_upsert]
      simp

/-- What stands under an id, in the index and in the queue. -/
abbrev Held := Option FactRow × Option BufferedCapture

/-- What is held of an id. -/
def heldAt (s : Store) (k : FactId) : Held := (s.facts.get? k, s.queue.get? k)

/-- What is held of an id once some wikis are empty. -/
def departed (a : Answers) (hers : List Str) (now : Str) (wikis : List WikiNode) (ws : List Str)
    (p : Held) : Held :=
  match p.1 with
  | some x =>
    if x.isActive = true ∧ x.wikiId ∈ ws then
      (evacuated a hers now wikis x, requeuedAs a hers now wikis x p.2)
    else p
  | none => p

lemma heldAt_foldl_relocate_of_notMem {xs : List FactRow} {s : Store} {k : FactId}
    (hk : ∀ x ∈ xs, x.factId ≠ k) :
    heldAt (xs.foldl (relocate a hers now wikis) s) k = heldAt s k := by
  induction xs generalizing s with
  | nil => rfl
  | cons x xs ih =>
    obtain ⟨hfacts, hqueue⟩ :=
      @get?_relocate_of_ne a hers now wikis s x k (hk x (by simp))
    rw [List.foldl_cons, ih fun y hy => hk y (by simp [hy]), heldAt, hfacts, hqueue]
    rfl

lemma heldAt_evacuateWiki (s : Store) (wikiId : Str) (k : FactId) :
    heldAt (evacuateWiki a hers now wikis s wikiId) k =
      departed a hers now wikis [wikiId] (heldAt s k) := by
  have hmem : ∀ x, x ∈ FactIndex.findActiveInWiki s.facts wikiId ↔
      x ∈ s.facts ∧ x.wikiId = wikiId ∧ x.isActive = true := by
    simp [FactIndex.findActiveInWiki, Table.mem_iff]
  unfold evacuateWiki departed
  cases hget : s.facts.get? k with
  | none =>
    have hfirst : (heldAt s k).1 = none := hget
    rw [hfirst, heldAt_foldl_relocate_of_notMem]
    intro x hx
    exact Table.get?_eq_none_iff.mp hget x ((hmem x).mp hx).1
  | some r =>
    have hfirst : (heldAt s k).1 = some r := hget
    obtain ⟨hr, rfl⟩ := Table.get?_eq_some_iff.mp hget
    rw [hfirst]
    simp only [List.mem_singleton]
    split_ifs with hleaves
    · obtain ⟨before, after, hsplit⟩ :=
        List.mem_iff_append.mp ((hmem r).mpr ⟨hr, hleaves.2, hleaves.1⟩)
      have hnodup : ((FactIndex.findActiveInWiki s.facts wikiId).map FactRow.factId).Nodup :=
        s.facts.nodup.sublist (List.filter_sublist.map FactRow.factId)
      rw [hsplit, List.map_append, List.map_cons, List.nodup_append] at hnodup
      have hbefore : ∀ x ∈ before, x.factId ≠ r.factId := by
        intro x hx
        exact hnodup.2.2 x.factId (List.mem_map_of_mem hx) r.factId (by simp)
      have hafter : ∀ x ∈ after, x.factId ≠ r.factId := by
        intro x hx hid
        refine (List.nodup_cons.mp hnodup.2.1).1 ?_
        rw [← hid]
        exact List.mem_map_of_mem hx
      have hheld := @heldAt_foldl_relocate_of_notMem a hers now wikis _ s r.factId hbefore
      rw [hsplit, List.foldl_append, List.foldl_cons, heldAt_foldl_relocate_of_notMem hafter]
      have hthere := (congrArg Prod.fst hheld).trans hget
      obtain ⟨hfacts, hqueue⟩ :=
        @get?_relocate_self a hers now wikis (before.foldl (relocate a hers now wikis) s) r hthere
          hleaves.1
      rw [heldAt, hfacts, hqueue]
      exact congrArg (fun c => (evacuated a hers now wikis r, requeuedAs a hers now wikis r c))
        (congrArg Prod.snd hheld)
    · refine heldAt_foldl_relocate_of_notMem ?_
      intro x hx hid
      obtain ⟨hx, hwiki, hactive⟩ := (hmem x).mp hx
      obtain rfl := Table.eq_of_key_eq hx hr hid
      exact hleaves ⟨hactive, hwiki⟩

lemma departed_cons {w : Str} {ws : List Str} (hsub : ∀ v ∈ w :: ws, v ∈ hers) (p : Held) :
    departed a hers now wikis ws (departed a hers now wikis [w] p) =
      departed a hers now wikis (w :: ws) p := by
  obtain ⟨_ | x, c⟩ := p
  · rfl
  by_cases hactive : x.isActive = true
  · by_cases hw : x.wikiId = w
    · -- where the fact moves to is none of the wikis that go
      cases hlanding : landing a hers wikis x with
      | none => simp [departed, hactive, hw, evacuated, hlanding]
      | some l =>
        obtain ⟨dest, path⟩ := l
        have hout : dest ∉ ws := fun h => landing_notMem hlanding (hsub dest (by simp [h]))
        simp [departed, hactive, hw, evacuated, hlanding, FactRow.moved, hout]
    · simp [departed, hactive, hw]
  · simp [departed, hactive]

/-- The fourth step. -/
lemma heldAt_evacuated (ws : List Str) (hsub : ∀ v ∈ ws, v ∈ hers) (s : Store) (k : FactId) :
    heldAt (ws.foldl (evacuateWiki a hers now wikis) s) k =
      departed a hers now wikis ws (heldAt s k) := by
  induction ws generalizing s with
  | nil =>
    unfold departed
    cases hget : (heldAt s k).1 <;> simp
  | cons w ws ih =>
    rw [List.foldl_cons, ih fun v hv => hsub v (by simp [hv]), heldAt_evacuateWiki,
      departed_cons hsub]

/-! ## The queue -/

/-- A claim that was parked for the card of the person, or by the person. -/
def parked (gone : Principal) (c : BufferedCapture) : Bool :=
  decide (c.status = .held) && (decide (c.subject = gone) || decide (c.sender = some gone))

/-- A claim about the person that nobody else made. -/
def alone (gone : Principal) (c : BufferedCapture) : Bool :=
  decide (c.subject = gone) &&
    (c.sender.isNone || decide (c.sender = some gone) || decide (c.sender = some removedSender))

/-- A claim that is dropped from the queue. -/
def dropped (gone : Principal) (c : BufferedCapture) : Bool := parked gone c || alone gone c

/-- A claim as the pass leaves it when it stays. -/
def kept (userId : Str) (c : BufferedCapture) : BufferedCapture :=
  let gone := Principal.user userId
  let c := if (decide (c.subject = gone) && c.sender.any fun s => s ≠ gone && s ≠ removedSender)
    then { c with
      subject := c.sender.getD c.subject
      subjectExternal := c.subjectExternal.orElse fun _ => some userId }
    else c
  let c := if decide (c.sender = some gone) then { c with sender := some removedSender } else c
  if decide (gone ∈ c.allow) then { c with allow := c.allow.filter fun p => p ≠ gone } else c

/-- The fifth step, and the lists of the seventh. -/
lemma get?_strikeFromQueue_forgetCaptures (queue : QueueTable) (k : FactId) :
    (strikeFromQueue (.user userId) (forgetCaptures userId queue)).get? k =
      (queue.get? k).bind fun c =>
        if dropped (.user userId) c = true then none else some (kept userId c) := by
  simp only [strikeFromQueue, forgetCaptures, Table.get?_update, Table.get?_delete]
  cases queue.get? k with
  | none => rfl
  | some c =>
    change ((((some c).filter fun c => !parked (.user userId) c).filter fun c =>
      !alone (.user userId) c).map _ |>.map _ |>.map _) = _
    cases hparked : parked (.user userId) c with
    | true => simp [Option.filter_some, dropped, hparked]
    | false =>
      cases halone : alone (.user userId) c with
      | true => simp [Option.filter_some, dropped, hparked, halone]
      | false =>
        rw [Option.filter_some_pos (by simp [hparked]), Option.filter_some_pos (by simp [halone]),
          Option.bind_some, if_neg (by simp [dropped, hparked, halone])]
        rfl

/-- What stays of a claim names the person in the excluded list only. -/
lemma kept_spec (hremoved : removedSender ≠ .user userId) {c : BufferedCapture}
    (h : dropped (.user userId) c = false) :
    (kept userId c).captureId = c.captureId ∧ (kept userId c).body = c.body ∧
      (kept userId c).excluded = c.excluded ∧ (kept userId c).subject ≠ .user userId ∧
      (kept userId c).sender ≠ some (.user userId) ∧ .user userId ∉ (kept userId c).allow := by
  have halone : alone (.user userId) c = false := (Bool.or_eq_false_iff.mp h).2
  unfold kept
  dsimp only
  by_cases hsubject : c.subject = .user userId
  · -- a claim about the person that stays was made by somebody else
    obtain ⟨keeper, hsender, hkeeper, hsomebody⟩ : ∃ keeper, c.sender = some keeper ∧
        keeper ≠ .user userId ∧ keeper ≠ removedSender := by
      cases hsender : c.sender with
      | none => simp [alone, hsubject, hsender] at halone
      | some keeper => exact ⟨keeper, rfl, by simpa [alone, hsubject, hsender] using halone⟩
    by_cases hallow : .user userId ∈ c.allow
    · simp [hsubject, hsender, hkeeper, hsomebody, hallow]
    · simp [hsubject, hsender, hkeeper, hsomebody, hallow]
  · by_cases hsender : c.sender = some (.user userId)
    · by_cases hallow : .user userId ∈ c.allow
      · simp [hsubject, hsender, hallow, hremoved]
      · simp [hsubject, hsender, hallow, hremoved]
    · by_cases hallow : .user userId ∈ c.allow
      · simp [hsubject, hsender, hallow]
      · simp [hsubject, hsender, hallow]

/-! ## The whole pass -/

/-- A fact as the removal of the wikis leaves it. -/
def buried (hers : List Str) (now : Str) (r : FactRow) : FactRow :=
  if r.wikiId ∈ hers ∧ r.deletedAt = none then r.forgotten deleteReason now else r

/-- The eleventh step. -/
lemma get?_buried (ds : List WikiNode) (facts : FactTable) (k : FactId) :
    (ds.foldl (fun facts d => FactIndex.markForgottenInWiki facts d.wikiId deleteReason now)
      facts).get? k = (facts.get? k).map (buried (ds.map WikiNode.wikiId) now) := by
  induction ds generalizing facts with
  | nil =>
    have hsame : buried [] now = id := by
      funext r
      simp [buried]
    rw [List.map_nil, hsame, Option.map_id]
    rfl
  | cons d ds ih =>
    rw [List.foldl_cons, ih, FactIndex.markForgottenInWiki, Table.get?_update, Option.map_map]
    refine Option.map_congr fun r _ => ?_
    by_cases hdeleted : r.deletedAt = none
    · by_cases hd : r.wikiId = d.wikiId
      · simp [buried, hdeleted, hd]
      · simp [buried, hdeleted, hd]
    · simp [buried, hdeleted]

/-- What the pass makes of what is held of an id. -/
noncomputable def passed (a : Answers) (now : Str) (w : Deployment) (userId : Str) (p : Held) :
    Held :=
  let hers := (herWikis w userId).map WikiNode.wikiId
  let settled := (p.1.bind (settled a hers now userId w.store.facts)).map
    (cleansed (.user userId) now)
  let left := departed a hers now w.wikis hers (settled, p.2)
  (left.1.map (buried hers now),
    left.2.bind fun c => if dropped (.user userId) c = true then none else some (kept userId c))

/-- The whole pass. -/
theorem heldAt_forgetUser {w w' : Deployment} (h : forgetUser a now w userId = some w')
    (k : FactId) : heldAt w'.store k = passed a now w userId (heldAt w.store k) := by
  obtain ⟨user, -, hpass⟩ := Option.bind_eq_some_iff.mp h
  dsimp only at hpass
  split_ifs at hpass
  obtain rfl := Option.some.inj hpass
  -- what is held of the id after the first three steps, and after the fourth
  have hthird : ∀ facts, heldAt { w.store with facts } k = (facts.get? k, w.store.queue.get? k) :=
    fun _ => rfl
  have hfourth := fun s => @heldAt_evacuated a _ now w.wikis
    ((herWikis w userId).map WikiNode.wikiId) (fun _ hv => hv) s k
  simp only [passed, ← get?_settled, heldAt, ← get?_cleansed]
  rw [← hthird, ← hfourth]
  simp only [heldAt, get?_buried, forgetInStore, get?_strikeFromQueue_forgetCaptures]

end Gdpr

end Mwe
