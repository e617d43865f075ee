import MweCore.Dream.Promote

/-!
# A new claim takes the place of a stored one

When a turn restates what the memory holds, the stored fact is retired in favour of the new one.
Its audience is carried over first: the successor takes the allow list of the retired fact,
`global` and the speaker apart, and keeps its own subject, its own author and its own exclusions.

Nothing carries the exclusions of the retired fact.  `weld_keeps_out_iff` says for which successors
nobody is let in all the same, by comparing the exclusions of the retired fact one by one with the
principals that open the successor.
-/

namespace Mwe

/-- The access record of a claim in the queue. -/
def BufferedCapture.acl (cap : BufferedCapture) : RegionAcl where
  subject := cap.subject
  allow := cap.allow
  excluded := cap.excluded
  sender := cap.sender

/-- Whether a claim waits under this id. -/
def CaptureBuffer.isBuffered (queue : QueueTable) (captureId : FactId) : Bool :=
  (waitingRow queue captureId).isSome

namespace Store

/-! ## The weld -/

/-- Carry an audience onto a successor, wherever it lives. -/
def inheritAudience (s : Store) (successor : FactId) (allow : List Principal) (now : Str) :
    Bool × Store :=
  match FactIndex.inheritAllow s.facts successor allow now with
  | (true, facts) => (true, { s with facts })
  | (false, facts) =>
    let (landed, queue) := CaptureBuffer.inheritAllow s.queue successor allow
    (landed, { facts, queue })

/-- Whether there is a row to be welded onto. -/
def successorExists (s : Store) (successor : FactId) : Bool :=
  (s.facts.get? successor).isSome || CaptureBuffer.isBuffered s.queue successor

section Weld

variable {T : Type*} [LinearOrder T] (chrono : Chrono T)

/-- Retire the superseded fact, wherever it lives. -/
def weldSupersede (s : Store) (target successor : FactId) (turnNow : T) (now : Str) :
    Bool × Store :=
  let staged := (s.queue.get? successor).bind BufferedCapture.validFrom
  let marked := FactIndex.markSuperseded chrono s.facts staged target successor turnNow now
  if 0 < marked.1 then (true, { s with facts := marked.2 })
  else
    let closedAt := FactIndex.supersededEnd chrono marked.2 staged successor turnNow
    let closed := CaptureBuffer.closeValidity chrono s.queue target closedAt
      "contradicted".toList turnNow
    (closed.1.isSome, { facts := marked.2, queue := closed.2 })

/-- The part of an audience that travels. -/
def inheritedAudience (audience : List Principal) (sender : Principal) : List Principal :=
  audience.filter fun p => decide (p ≠ sender) && !p.isGlobal

/-- Weld a successor onto the fact it replaces, audience first. -/
def weldWithAudience (s : Store) (target successor : FactId) (audience : List Principal)
    (sender : Principal) (turnNow : T) (inheritedAt weldedAt : Str) : Bool × Store :=
  let inherited := inheritedAudience audience sender
  if inherited.isEmpty then
    if s.successorExists successor then
      s.weldSupersede chrono target successor turnNow weldedAt
    else (false, s)
  else
    match s.inheritAudience successor inherited inheritedAt with
    | (true, s) => s.weldSupersede chrono target successor turnNow weldedAt
    | (false, s) => (false, s)

end Weld

/-! ## The access records of an id -/

/-- The access records an id is read under: of its fact, and of the claim that waits. -/
def access (s : Store) (id : FactId) : List RegionAcl :=
  ((FactIndex.activeRow s.facts id).map FactRow.acl).toList ++
    ((CaptureBuffer.waitingRow s.queue id).map BufferedCapture.acl).toList

/-- Whom the fact that a weld retires is kept from. -/
def retiredExcluded (s : Store) (target : FactId) : List Principal :=
  match (FactIndex.activeRow s.facts target).filter fun r => r.supersededAt.isNone with
  | some r => r.excludedIds
  | none => ((CaptureBuffer.waitingRow s.queue target).map BufferedCapture.excluded).getD []

/-- A record with what travels of an audience in the place of its own. -/
def carry (inherited : List Principal) (a : RegionAcl) : RegionAcl :=
  if inherited.isEmpty then a else { a with allow := inherited }

/-- The access records of a successor that an audience is carried onto. -/
def accessCarried (s : Store) (successor : FactId) (inherited : List Principal) :
    List RegionAcl :=
  match FactIndex.activeRow s.facts successor with
  | some r =>
    carry inherited r.acl ::
      ((CaptureBuffer.waitingRow s.queue successor).map BufferedCapture.acl).toList
  | none => ((CaptureBuffer.waitingRow s.queue successor).map fun cap =>
      carry inherited cap.acl).toList

lemma activeAcl_update {facts : FactTable} {sel : FactRow → Bool} {set : FactRow → FactRow}
    {hset : ∀ r, (set r).factId = r.factId} (hacl : ∀ r, (set r).acl = r.acl)
    (hdeleted : ∀ r, (set r).deletedAt = r.deletedAt) (id : FactId) :
    (FactIndex.activeRow (facts.update sel set hset) id).map FactRow.acl =
      (FactIndex.activeRow facts id).map FactRow.acl := by
  unfold FactIndex.activeRow
  rw [Sql.Table.get?_update]
  cases hget : facts.get? id with
  | none => rfl
  | some r =>
    by_cases hsel : sel r = true
    · by_cases hlive : r.deletedAt = none <;> simp [hsel, hacl, hdeleted, hlive, Option.filter]
    · simp [hsel]

lemma waitingAcl_updateWaiting {queue : QueueTable} {captureId : FactId}
    {set : BufferedCapture → BufferedCapture} {hset : ∀ cap, (set cap).captureId = cap.captureId}
    (hacl : ∀ cap, (set cap).acl = cap.acl) (hstatus : ∀ cap, (set cap).status = cap.status)
    (id : FactId) :
    (CaptureBuffer.waitingRow (CaptureBuffer.updateWaiting queue captureId set hset) id).map
        BufferedCapture.acl = (CaptureBuffer.waitingRow queue id).map BufferedCapture.acl := by
  unfold CaptureBuffer.waitingRow
  rw [CaptureBuffer.get?_updateWaiting]
  cases hget : queue.get? id with
  | none => rfl
  | some cap =>
    by_cases hsel : id = captureId ∧ cap.status = .buffered
    · simp [hsel, hacl, hstatus, Option.filter]
    · simp [hsel]

section Weld

variable {T : Type*} [LinearOrder T] {chrono : Chrono T}

/-- To retire a fact changes nobody's access. -/
lemma access_weldSupersede (s : Store) (target successor : FactId) (turnNow : T) (now : Str)
    (id : FactId) :
    (s.weldSupersede chrono target successor turnNow now).2.access id = s.access id := by
  have hfacts : ∀ staged, (FactIndex.activeRow (FactIndex.markSuperseded chrono s.facts staged
      target successor turnNow now).2 id).map FactRow.acl =
        (FactIndex.activeRow s.facts id).map FactRow.acl := by
    intro staged
    unfold FactIndex.markSuperseded
    exact @activeAcl_update _ _ _ (FactRow.factId_superseded _ _ _) (fun _ => rfl)
      (fun _ => rfl) id
  have hqueue : ∀ validTo reason, (CaptureBuffer.waitingRow (CaptureBuffer.closeValidity chrono
      s.queue target validTo reason turnNow).2 id).map BufferedCapture.acl =
        (CaptureBuffer.waitingRow s.queue id).map BufferedCapture.acl := by
    intro validTo reason
    unfold CaptureBuffer.closeValidity
    split
    · rfl
    · exact @waitingAcl_updateWaiting _ _ _ (BufferedCapture.captureId_closed _ _)
        (fun _ => rfl) (fun _ => rfl) id
  unfold weldSupersede access
  dsimp only
  split_ifs
  · rw [hfacts]
  · rw [hfacts, hqueue]

/-- The audience lands on the fact when there is one, and else on the claim that waits. -/
lemma access_inheritAudience {s s' : Store} {successor : FactId} {allow : List Principal}
    {now : Str} (hallow : allow.isEmpty = false)
    (h : s.inheritAudience successor allow now = (true, s')) :
    s'.access successor = s.accessCarried successor allow := by
  unfold inheritAudience FactIndex.inheritAllow at h
  unfold accessCarried
  cases hrow : FactIndex.activeRow s.facts successor with
  | some r =>
    simp only [hrow, Option.isSome_some] at h
    obtain rfl := (Prod.mk.inj h).2
    obtain ⟨hmem, hid, hlive⟩ := FactIndex.activeRow_eq_some_iff.mp hrow
    have hget : s.facts.get? successor = some r := Sql.Table.get?_eq_some_iff.mpr ⟨hmem, hid⟩
    simp [access, FactIndex.activeRow, FactIndex.get?_updateActive, hget, hlive, carry, hallow,
      FactRow.withAllow, FactRow.acl, Option.filter]
  | none =>
    simp only [hrow, Option.isSome_none] at h
    obtain ⟨hlanded, rfl⟩ := Prod.mk.inj h
    obtain ⟨cap, hcap⟩ := Option.isSome_iff_exists.mp hlanded
    obtain ⟨hget, hwaits⟩ := Option.filter_eq_some_iff.mp hcap
    have hgone : FactIndex.activeRow (FactIndex.updateActive s.facts successor
        (FactRow.withAllow allow now) (FactRow.factId_withAllow allow now)) successor = none := by
      unfold FactIndex.activeRow at hrow ⊢
      rw [FactIndex.get?_updateActive]
      cases hfact : s.facts.get? successor with
      | none => rfl
      | some r =>
        have hdeleted : r.deletedAt ≠ none := by simpa [hfact, Option.filter] using hrow
        simp [hdeleted, Option.filter]
    simp only [decide_eq_true_eq] at hwaits
    simp [access, hgone, CaptureBuffer.inheritAllow, CaptureBuffer.waitingRow,
      CaptureBuffer.get?_updateWaiting, hget, hwaits, carry, hallow, Option.filter,
      BufferedCapture.withAllow, BufferedCapture.acl]

/-- What a successor is read under once it is welded on. -/
lemma access_weldWithAudience {s s' : Store} {target successor : FactId}
    {audience : List Principal} {sender : Principal} {turnNow : T} {inheritedAt weldedAt : Str}
    (h : s.weldWithAudience chrono target successor audience sender turnNow inheritedAt weldedAt =
      (true, s')) :
    s'.access successor = s.accessCarried successor (inheritedAudience audience sender) := by
  unfold weldWithAudience at h
  dsimp only at h
  split at h
  · next hempty =>
    split at h
    · have hs' : s' = (s.weldSupersede chrono target successor turnNow weldedAt).2 := by rw [h]
      rw [hs', access_weldSupersede]
      unfold access accessCarried carry
      simp only [hempty, if_true]
      cases FactIndex.activeRow s.facts successor <;> rfl
    · cases h
  · next hsome =>
    split at h
    · next s₁ hinherit =>
      have hs' : s' = (s₁.weldSupersede chrono target successor turnNow weldedAt).2 := by rw [h]
      rw [hs', access_weldSupersede]
      exact access_inheritAudience (by simpa using hsome) hinherit
    · cases h

end Weld

/-! ## Who is let in -/

/-- Nobody the first list names reads under the record, its author apart. -/
def KeepsOut (excluded : List Principal) (a : RegionAcl) : Prop :=
  ∀ (roster : Str → List Str) (u : Str),
    (∃ p ∈ excluded, principalMatches p u (roster u) = true) → a.sender ≠ some (.user u) →
      rowReadableBy a u (roster u) = false

/-- No reader that the first list names can hold a principal that opens the record and is not
excluded by the record itself: each pair is closed by an exclusion of the record, or names two
different people, or the author. -/
def FenceCarried (excluded : List Principal) (a : RegionAcl) : Prop :=
  ∀ p ∈ excluded, ∀ q ∈ a.subject :: a.allow ++ a.sender.toList,
    Principal.global ∈ a.excluded ∨ p ∈ a.excluded ∨ q ∈ a.excluded ∨
      (∃ u v, u ≠ v ∧ p = .user u ∧ q = .user v) ∨
      ∃ u, a.sender = some (.user u) ∧ (p = .user u ∨ q = .user u)

/-- Two principals that are not two different people have a common reader who answers to nothing
else, and who can be a newcomer when neither is a person. -/
lemma exists_reader {p q : Principal} (h : ¬ ∃ u v, u ≠ v ∧ p = .user u ∧ q = .user v)
    (known : List Principal) :
    ∃ u groups, p ∈ Holds u groups ∧ q ∈ Holds u groups ∧
      (∀ x ∈ Holds u groups, x = .global ∨ x = p ∨ x = q ∨ x = .user u) ∧
      (.user u = p ∨ .user u = q ∨ .user u ∉ known) := by
  cases p with
  | user u =>
    cases q with
    | user v =>
      have huv : u = v := by
        by_contra hne
        exact h ⟨u, v, hne, rfl, rfl⟩
      refine ⟨u, [], ?_⟩
      simp [Holds, huv]
    | group g =>
      refine ⟨u, [g], ?_⟩
      simp [Holds]
  | group g =>
    cases q with
    | user v =>
      refine ⟨v, [g], ?_⟩
      simp [Holds]
    | group g' =>
      have huser : Function.Injective Principal.user := fun _ _ h => Principal.user.inj h
      obtain ⟨u, hu⟩ := Infinite.exists_notMem_finset
        (known.toFinset.preimage Principal.user huser.injOn)
      refine ⟨u, [g, g'], ?_⟩
      have hnew : .user u ∉ known := by
        intro hknown
        apply hu
        rw [Finset.mem_preimage, List.mem_toFinset]
        exact hknown
      simp only [Holds, Set.mem_ofPred_eq]
      refine ⟨.inr (.inr ⟨g, by simp⟩), .inr (.inr ⟨g', by simp⟩), ?_, .inr (.inr hnew)⟩
      rintro x (rfl | rfl | ⟨y, hy, rfl⟩)
      · exact .inl rfl
      · exact .inr (.inr (.inr rfl))
      · rcases List.mem_pair.mp hy with rfl | rfl
        · exact .inr (.inl rfl)
        · exact .inr (.inr (.inl rfl))

lemma user_mem_holds_iff {u v : Str} {groups : List Str} :
    Principal.user v ∈ Holds u groups ↔ v = u := by
  simp [Holds, Principal.global]

/-- A record keeps out whoever the list names exactly when the fence was carried onto it. -/
lemma keepsOut_iff {excluded : List Principal} {a : RegionAcl} :
    KeepsOut excluded a ↔ FenceCarried excluded a := by
  have hopens : ∀ q, q ∈ a.subject :: a.allow ++ a.sender.toList ↔
      a.toAcl.subject = some q ∨ q ∈ a.toAcl.allow ∨ a.sender = some q := by
    intro q
    simp [RegionAcl.toAcl, eq_comm]
  constructor
  · intro hkeeps p hp q hq
    by_contra hopen
    simp only [not_or] at hopen
    obtain ⟨hglobal, hpExcluded, hqExcluded, hapart, hauthor⟩ := hopen
    obtain ⟨u, groups, hpHeld, hqHeld, hheld, hnew⟩ :=
      exists_reader hapart (a.excluded ++ a.sender.toList)
    have hsender : a.sender ≠ some (.user u) := by
      intro hsender
      rcases hnew with hu | hu | hu
      · exact hauthor ⟨u, hsender, .inl hu.symm⟩
      · exact hauthor ⟨u, hsender, .inr hu.symm⟩
      · simp [hsender] at hu
    have hreads : rowReadableBy a u groups = true := by
      unfold rowReadableBy
      rw [canRead_eq_true_iff]
      refine ⟨?_, q, hqHeld, (hopens q).mp hq⟩
      intro x hx hxHeld
      have hxExcluded : x ∈ a.excluded := hx
      rcases hheld x hxHeld with rfl | rfl | rfl | rfl
      · exact hglobal hxExcluded
      · exact hpExcluded hxExcluded
      · exact hqExcluded hxExcluded
      · rcases hnew with hu | hu | hu
        · exact hpExcluded (hu ▸ hxExcluded)
        · exact hqExcluded (hu ▸ hxExcluded)
        · exact hu (List.mem_append_left _ hxExcluded)
    have hblind := hkeeps (fun _ => groups) u ⟨p, hp, principalMatches_iff.mpr hpHeld⟩ hsender
    cases hblind.symm.trans hreads
  · rintro hfence roster u ⟨p, hp, hmatch⟩ hsender
    rw [Bool.eq_false_iff]
    intro hreads
    obtain ⟨hout, q, hqHeld, hq⟩ := (canRead_eq_true_iff _ _ _ _).mp hreads
    have hpHeld : p ∈ Holds u (roster u) := principalMatches_iff.mp hmatch
    rcases hfence p hp q ((hopens q).mpr hq) with h | h | h | ⟨v, w, hne, rfl, rfl⟩ |
      ⟨v, hauthor, rfl | rfl⟩
    · exact hout _ h (.inl rfl)
    · exact hout p h hpHeld
    · exact hout q h hqHeld
    · rw [user_mem_holds_iff] at hpHeld hqHeld
      exact hne (hpHeld.trans hqHeld.symm)
    · exact hsender (user_mem_holds_iff.mp hpHeld ▸ hauthor)
    · exact hsender (user_mem_holds_iff.mp hqHeld ▸ hauthor)

/-- Once a weld reports that a fact was retired, nobody it was kept from reads the successor,
under any roster and in either store, exactly when the fence was on the successor already. -/
theorem weld_keeps_out_iff {T : Type*} [LinearOrder T] (chrono : Chrono T) {s s' : Store}
    {target successor : FactId} {audience : List Principal} {sender : Principal} {turnNow : T}
    {inheritedAt weldedAt : Str}
    (h : s.weldWithAudience chrono target successor audience sender turnNow inheritedAt weldedAt =
      (true, s')) :
    (∀ a ∈ s'.access successor, KeepsOut (s.retiredExcluded target) a) ↔
      ∀ a ∈ s.accessCarried successor (inheritedAudience audience sender),
        FenceCarried (s.retiredExcluded target) a := by
  rw [access_weldWithAudience h]
  simp only [keepsOut_iff]

/-! ## A reworded claim -/

open FactIndex (sampleChrono halfPast)

/-- A fact for the parents, kept from Bob. -/
def fenced : NewFact :=
  { halfPast with
    allowIds := [.group "parents".toList]
    excludedIds := [.user "bob".toList]
    senderId := some (.user "alice".toList) }

/-- The same claim in other words, and whom it is kept from. -/
def reworded (excluded : List Principal) : NewFact :=
  { halfPast with
    factId := ⟨"018f1234-5678-7abc-9def-0123456789cd".toList, isFactId_cd⟩
    excludedIds := excluded
    senderId := some (.user "alice".toList) }

/-- The two facts. -/
def toldTwice (excluded : List Principal) : Store where
  facts := FactIndex.insertIfAbsent (FactIndex.insertIfAbsent (Sql.Table.empty _) fenced [])
    (reworded excluded) []
  queue := Sql.Table.empty _

/-- The second takes the place of the first. -/
def weldTold (excluded : List Principal) : Bool × Store :=
  (toldTwice excluded).weldWithAudience sampleChrono fenced.factId (reworded excluded).factId
    fenced.allowIds (.user "alice".toList) 0 [] []

theorem weld_keeps_out_iff_fencedAgain :
    (weldTold [.user "bob".toList]).1 = true ∧
      ∀ a ∈ (weldTold [.user "bob".toList]).2.access (reworded []).factId,
        KeepsOut [.user "bob".toList] a := by
  have hwelded : (weldTold [.user "bob".toList]).1 = true ∧
      (toldTwice [.user "bob".toList]).retiredExcluded fenced.factId = [.user "bob".toList] ∧
      ∀ a ∈ (toldTwice [.user "bob".toList]).accessCarried (reworded []).factId
        (inheritedAudience fenced.allowIds (.user "alice".toList)),
          .user "bob".toList ∈ a.excluded := by
    decide +kernel
  obtain ⟨hdone, hretired, hfence⟩ := hwelded
  refine ⟨hdone, ?_⟩
  have hweld : (toldTwice [.user "bob".toList]).weldWithAudience sampleChrono fenced.factId
      (reworded []).factId fenced.allowIds (.user "alice".toList) 0 [] [] =
        (true, (weldTold [.user "bob".toList]).2) := Prod.ext hdone rfl
  have hiff := weld_keeps_out_iff sampleChrono hweld
  rw [hretired] at hiff
  rw [hiff]
  intro a ha p hp q _
  rw [List.mem_singleton.mp hp]
  exact .inr (.inl (hfence a ha))

/-- Bob is a parent: he reads the new words of the claim he was kept from. -/
theorem weld_tells_excluded :
    (weldTold []).1 = true ∧ ∃ a ∈ (weldTold []).2.access (reworded []).factId,
      ¬ KeepsOut ((toldTwice []).retiredExcluded fenced.factId) a := by
  have hwelded : (weldTold []).1 = true ∧
      (toldTwice []).retiredExcluded fenced.factId = [.user "bob".toList] ∧
      ∃ a ∈ (weldTold []).2.access (reworded []).factId,
        a.sender = some (.user "alice".toList) ∧
          rowReadableBy a "bob".toList ["parents".toList] = true := by
    decide +kernel
  obtain ⟨hdone, hretired, a, ha, hsender, hreads⟩ := hwelded
  refine ⟨hdone, a, ha, ?_⟩
  rw [hretired]
  intro hkeeps
  have hout := hkeeps (fun _ => ["parents".toList]) "bob".toList (by simp [principalMatches])
    (by rw [hsender]; decide)
  cases hout.symm.trans hreads

end Store

end Mwe
