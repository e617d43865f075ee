import MweCore.FactIndex.Access

/-!
# Who a fact is kept from

`restrictTo` reads a fact's exclusions, adds to them in the program, and writes the union back in
a second statement.  Here it runs beside the other operations that write the row of a fact and are
not meant to touch its exclusions, each of them one database statement at a time.

What an operation wrote between the two statements of a `restrictTo` is overwritten.  That is
harmless while nobody was added: `exclusions_kept_iff` says that no exclusion is ever lost exactly
when every `restrictTo` writes a union that covers what the row holds by then.
-/

namespace Mwe

/-- A row as one hit of `bumpRecallHits` leaves it. -/
def FactRow.recalled (now : Str) (r : FactRow) : FactRow :=
  { r with lastRecallAt := some now, recallCount30d := r.recallCount30d + 1 }

@[simp] lemma FactRow.factId_recalled (now : Str) (r : FactRow) :
    (r.recalled now).factId = r.factId := rfl

namespace FactIndex

/-- Count a recall for each of the facts, in one transaction. -/
def bumpRecallHits (facts : FactTable) (hits : List FactId) (now : Str) : FactTable :=
  hits.foldl (fun facts f =>
    facts.update (fun r => r.factId == f) (FactRow.recalled now) (FactRow.factId_recalled now))
    facts

namespace Fences

/-! ## Calls, one statement at a time -/

/-- A call of an operation that is not to drop an exclusion. -/
inductive Call (T : Type*) where
  | restrictTo (factId : FactId) (excluded readers : List Principal)
  | inheritAllow (factId : FactId) (allow : List Principal)
  | setAcl (factId : FactId) (subject : Principal) (allow : List Principal)
      (sender : Option Principal)
  | markSuperseded (oldFactId newFactId : FactId) (whenUnstated : T)
  | bumpRecallHits (hits : List FactId)

/-- How far a call is. -/
inductive Phase where
  | start
  /-- the row it was called for is read -/
  | found (row : FactRow)
  /-- the successor of a supersede is not a fact yet -/
  | unwritten
  /-- the end a supersede proposes -/
  | proposed (stop : Str)
  /-- the end a supersede writes -/
  | closing (closedAt : Str)
  /-- the call is over, and says whether it did its work -/
  | returned (done : Bool)

section Calls

variable {T : Type*} [LinearOrder T] (chrono : Chrono T)

/-- The next statement of a call; `staged` is what the capture buffer knows of a successor's
start. -/
def next (staged : FactId → Option Str) (facts : FactTable) (now : Str) :
    Call T → Phase → Option (FactTable × Phase)
  | .restrictTo factId _ _, .start | .setAcl factId _ _ _, .start =>
    match activeRow facts factId with
    | none => some (facts, .returned false)
    | some row => some (facts, .found row)
  | .restrictTo factId excluded readers, .found row =>
    let union := (row.excludedIds ++ excluded).eraseDups
    some (updateActive facts factId (FactRow.restricted union readers now)
      (FactRow.factId_restricted union readers now), .returned (activeRow facts factId).isSome)
  | .setAcl factId subject allow sender, .found _ =>
    some (updateActive facts factId (FactRow.withAcl subject allow sender none now)
      (FactRow.factId_withAcl subject allow sender none now), .returned true)
  | .inheritAllow factId allow, .start =>
    some ((inheritAllow facts factId allow now).2,
      .returned (inheritAllow facts factId allow now).1)
  | .markSuperseded _ newFactId whenUnstated, .start =>
    match facts.get? newFactId with
    | some row => some (facts, .proposed
        (row.validFrom.getD (boundFromInstant chrono whenUnstated)))
    | none => some (facts, .unwritten)
  | .markSuperseded _ newFactId whenUnstated, .unwritten =>
    some (facts, .proposed ((staged newFactId).getD (boundFromInstant chrono whenUnstated)))
  | .markSuperseded oldFactId _ whenUnstated, .proposed stop =>
    some (facts, .closing
      (endNotBeforeStart chrono (currentValidFrom facts oldFactId) stop whenUnstated))
  | .markSuperseded oldFactId newFactId _, .closing closedAt =>
    let sel : FactRow → Bool := fun r =>
      r.factId == oldFactId && r.supersededAt.isNone && r.deletedAt.isNone
    some (facts.update sel (FactRow.superseded newFactId closedAt now)
      (FactRow.factId_superseded newFactId closedAt now), .returned (facts.rows.any sel))
  | .bumpRecallHits hits, .start => some (bumpRecallHits facts hits now, .returned true)
  | _, _ => none

/-- With nothing in between, the two statements of a `restrictTo` do what it does. -/
lemma next_next_restrictTo (staged : FactId → Option Str) (facts : FactTable) (factId : FactId)
    (excluded readers : List Principal) (now : Str) {row : FactRow}
    (hrow : activeRow facts factId = some row) :
    ((next chrono staged facts now (.restrictTo factId excluded readers) .start).bind fun out =>
        next chrono staged out.1 now (.restrictTo factId excluded readers) out.2) =
      some ((restrictTo facts factId excluded readers now).2, .returned true) := by
  simp [next, restrictTo, hrow]

/-- The fact index, and the calls made so far. -/
structure Board (T : Type*) where
  facts : FactTable
  calls : List (Call T × Phase)

/-- A call begins, or the call at a place of the board makes its next statement. -/
inductive Event (T : Type*) where
  | call (c : Call T)
  | next (i : ℕ) (now : Str)

/-- One event. -/
def step (staged : FactId → Option Str) (b : Board T) : Event T → Option (Board T)
  | .call c => some { b with calls := b.calls ++ [(c, .start)] }
  | .next i now =>
    b.calls[i]?.bind fun call =>
      (next chrono staged b.facts now call.1 call.2).map fun out =>
        { facts := out.1, calls := b.calls.set i (call.1, out.2) }

end Calls

/-! ## Exclusions -/

/-- The people a fact is kept from. -/
def excluded (facts : FactTable) (factId : FactId) : List Principal :=
  ((facts.get? factId).map FactRow.excludedIds).getD []

/-- Every exclusion of the one table is in the other. -/
def Covers (facts facts' : FactTable) : Prop :=
  ∀ factId, excluded facts factId ⊆ excluded facts' factId

lemma Covers.trans {facts facts' facts'' : FactTable} (h : Covers facts facts')
    (h' : Covers facts' facts'') : Covers facts facts'' :=
  fun factId => List.Subset.trans (h factId) (h' factId)

lemma Covers.of_eq {facts facts' : FactTable} (h : excluded facts' = excluded facts) :
    Covers facts facts' := by
  intro factId
  rw [h]
  exact List.Subset.refl _

/-- An update that does not write the column leaves the exclusions. -/
lemma excluded_update {facts : FactTable} {sel : FactRow → Bool} {set : FactRow → FactRow}
    {hset : ∀ r, (set r).factId = r.factId} (h : ∀ r, (set r).excludedIds = r.excludedIds) :
    excluded (facts.update sel set hset) = excluded facts := by
  funext factId
  unfold excluded
  rw [Sql.Table.get?_update, Option.map_map]
  congr 2
  funext r
  simp only [Function.comp_apply]
  split_ifs
  · exact h r
  · rfl

lemma excluded_bumpRecallHits (facts : FactTable) (hits : List FactId) (now : Str) :
    excluded (bumpRecallHits facts hits now) = excluded facts := by
  induction hits generalizing facts with
  | nil => rfl
  | cons f hits ih =>
    have hone := ih (facts.update (fun r => r.factId == f) (FactRow.recalled now)
      (FactRow.factId_recalled now))
    exact hone.trans (excluded_update fun _ => rfl)

/-- Whom a fact is kept from once a `restrictTo` wrote its union. -/
lemma excluded_restricted (facts : FactTable) (factId : FactId) (union readers : List Principal)
    (now : Str) (id : FactId) :
    excluded (updateActive facts factId (FactRow.restricted union readers now)
        (FactRow.factId_restricted union readers now)) id =
      if id = factId ∧ (activeRow facts factId).isSome then union else excluded facts id := by
  unfold excluded
  rw [get?_updateActive, Option.map_map, activeRow]
  by_cases hid : id = factId
  · subst hid
    cases hrow : facts.get? id with
    | none => simp
    | some r => cases hdel : r.deletedAt <;> simp [hdel, FactRow.restricted]
  · simp only [hid, false_and, if_false]
    rfl

section Runs

variable {T : Type*} [LinearOrder T] (chrono : Chrono T) {staged : FactId → Option Str}

/-- The union a `restrictTo` is about to write covers what the row holds by now. -/
def UnionCovers (b : Board T) : Event T → Prop
  | .call _ => True
  | .next i _ => ∀ factId asked readers row,
      b.calls[i]? = some (.restrictTo factId asked readers, .found row) →
        ∀ current, activeRow b.facts factId = some current →
          current.excludedIds ⊆ row.excludedIds ++ asked

/-- A `restrictTo` that reported success asked to keep the fact from this person. -/
def Asked (b : Board T) (factId : FactId) (p : Principal) : Prop :=
  ∃ asked readers, (Call.restrictTo factId asked readers, Phase.returned true) ∈ b.calls ∧
    p ∈ asked

/-- No exclusion is lost between two moments of a run, and at each of its moments a fact is kept
from everybody a successful `restrictTo` asked to keep it from. -/
def ExclusionsKept (trace : List (Board T × Event T)) (t : Board T) : Prop :=
  (trace.map Prod.fst ++ [t]).Pairwise (fun x y => Covers x.facts y.facts) ∧
    Run.Always (fun x => ∀ factId p, Asked x factId p → p ∈ excluded x.facts factId) trace t

variable {chrono}

/-- What a statement does to the exclusions: nothing, unless it is the write of a
`restrictTo`. -/
lemma next_cases {facts facts' : FactTable} {now : Str} {c : Call T} {phase phase' : Phase}
    (h : next chrono staged facts now c phase = some (facts', phase')) :
    (excluded facts' = excluded facts ∧
      ∀ factId asked readers, c = .restrictTo factId asked readers → phase' ≠ .returned true) ∨
    ∃ factId asked readers row, c = .restrictTo factId asked readers ∧ phase = .found row ∧
      phase' = .returned (activeRow facts factId).isSome ∧
      ∀ id, excluded facts' id = if id = factId ∧ (activeRow facts factId).isSome
        then (row.excludedIds ++ asked).eraseDups else excluded facts id := by
  unfold next at h
  split at h
  · split at h <;> obtain ⟨rfl, rfl⟩ := Prod.mk.inj (Option.some.inj h) <;> simp
  · split at h <;> obtain ⟨rfl, rfl⟩ := Prod.mk.inj (Option.some.inj h) <;> simp
  · next factId asked readers row =>
    obtain ⟨rfl, rfl⟩ := Prod.mk.inj (Option.some.inj h)
    exact .inr ⟨factId, asked, readers, row, rfl, rfl, rfl,
      excluded_restricted facts factId _ readers now⟩
  · obtain ⟨rfl, rfl⟩ := Prod.mk.inj (Option.some.inj h)
    exact .inl ⟨excluded_update fun _ => rfl, by simp⟩
  · next factId allow =>
    obtain ⟨rfl, rfl⟩ := Prod.mk.inj (Option.some.inj h)
    have hsame : excluded (inheritAllow facts factId allow now).2 = excluded facts :=
      @excluded_update facts _ _ (FactRow.factId_withAllow allow now) fun _ => rfl
    exact .inl ⟨hsame, by simp⟩
  · split at h <;> obtain ⟨rfl, rfl⟩ := Prod.mk.inj (Option.some.inj h) <;> simp
  · obtain ⟨rfl, rfl⟩ := Prod.mk.inj (Option.some.inj h)
    simp
  · obtain ⟨rfl, rfl⟩ := Prod.mk.inj (Option.some.inj h)
    simp
  · obtain ⟨rfl, rfl⟩ := Prod.mk.inj (Option.some.inj h)
    exact .inl ⟨excluded_update fun _ => rfl, by simp⟩
  · obtain ⟨rfl, rfl⟩ := Prod.mk.inj (Option.some.inj h)
    exact .inl ⟨excluded_bumpRecallHits facts _ now, by simp⟩
  · cases h

/-- One event: a call begins, or a call of the board goes on. -/
lemma step_cases {b b' : Board T} {e : Event T} (h : step chrono staged b e = some b') :
    (∃ c, e = .call c ∧ b' = { b with calls := b.calls ++ [(c, .start)] }) ∨
    ∃ i now c phase facts phase', e = .next i now ∧ b.calls[i]? = some (c, phase) ∧
      next chrono staged b.facts now c phase = some (facts, phase') ∧
      b' = { facts, calls := b.calls.set i (c, phase') } := by
  cases e with
  | call c => exact .inl ⟨c, rfl, (Option.some.inj h).symm⟩
  | next i now =>
    obtain ⟨⟨c, phase⟩, hcall, h⟩ := Option.bind_eq_some_iff.mp h
    obtain ⟨⟨facts, phase'⟩, hnext, rfl⟩ := Option.map_eq_some_iff.mp h
    exact .inr ⟨i, now, c, phase, facts, phase', rfl, hcall, hnext, rfl⟩

/-- A step loses no exclusion exactly when a union it writes covers what the row holds. -/
lemma covers_step_iff {b b' : Board T} {e : Event T} (h : step chrono staged b e = some b') :
    Covers b.facts b'.facts ↔ UnionCovers b e := by
  obtain ⟨c, rfl, rfl⟩ | ⟨i, now, c, phase, facts, phase', rfl, hcall, hnext, rfl⟩ :=
    step_cases h
  · exact iff_of_true (Covers.of_eq rfl) trivial
  obtain ⟨hsame, -⟩ | ⟨factId, asked, readers, row, rfl, rfl, -, hunion⟩ := next_cases hnext
  · refine iff_of_true (Covers.of_eq hsame) ?_
    intro factId asked readers row hrestrict current hcurrent
    -- the write of a `restrictTo` that leaves the exclusions as they are
    rw [hcall] at hrestrict
    obtain ⟨rfl, rfl⟩ := Prod.mk.inj (Option.some.inj hrestrict)
    obtain ⟨rfl, -⟩ := Prod.mk.inj (Option.some.inj hnext)
    have hwritten := congrFun hsame factId
    rw [excluded_restricted, if_pos ⟨rfl, by simp [hcurrent]⟩] at hwritten
    obtain ⟨hmem, hid, -⟩ := activeRow_eq_some_iff.mp hcurrent
    rw [excluded, Sql.Table.get?_eq_some_iff.mpr ⟨hmem, hid⟩] at hwritten
    intro p hp
    have : p ∈ (row.excludedIds ++ asked).eraseDups := by
      rw [hwritten]
      exact hp
    exact List.mem_eraseDups.mp this
  · constructor
    · intro hcovers factId' asked' readers' row' hrestrict current hcurrent p hp
      rw [hcall] at hrestrict
      obtain ⟨hc, hrow⟩ := Prod.mk.inj (Option.some.inj hrestrict)
      obtain ⟨rfl, rfl, rfl⟩ := Call.restrictTo.inj hc
      obtain rfl := Phase.found.inj hrow
      obtain ⟨hmem, hid, -⟩ := activeRow_eq_some_iff.mp hcurrent
      have hbefore : p ∈ excluded b.facts factId := by
        rw [excluded, Sql.Table.get?_eq_some_iff.mpr ⟨hmem, hid⟩]
        exact hp
      have hafter := hcovers factId hbefore
      rw [hunion, if_pos ⟨rfl, by simp [hcurrent]⟩] at hafter
      exact List.mem_eraseDups.mp hafter
    · intro hunionCovers id p hp
      rw [hunion]
      split_ifs with hwrite
      · obtain ⟨rfl, hactive⟩ := hwrite
        obtain ⟨current, hcurrent⟩ := Option.isSome_iff_exists.mp hactive
        obtain ⟨hmem, hid, -⟩ := activeRow_eq_some_iff.mp hcurrent
        rw [excluded, Sql.Table.get?_eq_some_iff.mpr ⟨hmem, hid⟩] at hp
        exact List.mem_eraseDups.mpr
          (hunionCovers id asked readers row hcall current hcurrent hp)
      · exact hp

/-- A `restrictTo` that reports success leaves the fact kept from everybody it asked for, and a
step that loses no exclusion leaves it so. -/
lemma asked_step {b b' : Board T} {e : Event T} (h : step chrono staged b e = some b')
    (hb : ∀ factId p, Asked b factId p → p ∈ excluded b.facts factId)
    (hcovers : Covers b.facts b'.facts) :
    ∀ factId p, Asked b' factId p → p ∈ excluded b'.facts factId := by
  rintro id p ⟨asked', readers', hcalled, hp⟩
  have hold : (Call.restrictTo id asked' readers', Phase.returned true) ∈ b.calls →
      p ∈ excluded b'.facts id := fun hmem => hcovers id (hb id p ⟨asked', readers', hmem, hp⟩)
  obtain ⟨c, rfl, rfl⟩ | ⟨i, now, c, phase, facts, phase', rfl, hcall, hnext, rfl⟩ :=
    step_cases h
  · rcases List.mem_append.mp hcalled with hcalled | hcalled
    · exact hold hcalled
    · cases List.mem_singleton.mp hcalled
  rcases List.mem_or_eq_of_mem_set hcalled with hcalled | hcalled
  · exact hold hcalled
  obtain ⟨rfl, rfl⟩ := Prod.mk.inj hcalled
  obtain ⟨-, hno⟩ | ⟨factId, asked, readers, row, hc, rfl, hdone, hunion⟩ := next_cases hnext
  · exact absurd rfl (hno id asked' readers' rfl)
  · obtain ⟨rfl, rfl, rfl⟩ := Call.restrictTo.inj hc
    rw [hunion, if_pos ⟨rfl, (Phase.returned.inj hdone).symm⟩]
    exact List.mem_eraseDups.mpr (List.mem_append_right _ hp)

/-- No exclusion is lost in a run exactly when every `restrictTo` of it wrote a union that covered
what the row held by then. -/
theorem exclusions_kept_iff {b b' : Board T} {trace : List (Board T × Event T)}
    (hrun : Run (step chrono staged) b trace b') (hstart : b.calls = []) :
    ExclusionsKept trace b' ↔ ∀ p ∈ trace, UnionCovers p.1 p.2 := by
  unfold ExclusionsKept
  have hpairwise := Run.pairwise_iff (R := fun x y : Board T => Covers x.facts y.facts)
    (C := UnionCovers) Covers.trans covers_step_iff hrun
  rw [hpairwise, and_iff_left_iff_imp]
  intro hC
  refine hrun.invariant ?_ ?_ hC
  · rintro factId p ⟨asked, readers, hcalled, -⟩
    simp [hstart] at hcalled
  · intro x y e hstep hx hcovers
    exact asked_step hstep hx ((covers_step_iff hstep).mpr hcovers)

end Runs

/-! ## Two people fence the same fact -/

/-- Nobody knows of a successor. -/
def noneStaged : FactId → Option Str := fun _ => none

/-- A fact nobody is kept from. -/
def openFact : Board ℤ where
  facts := insertIfAbsent (Sql.Table.empty _) halfPast []
  calls := []

/-- Keep the fact from one person. -/
def keepFrom (name : Str) : Call ℤ := .restrictTo halfPast.factId [.user name] []

/-- Whether the union a `restrictTo` is about to write covers what the row holds by now. -/
def unionCovers (b : Board ℤ) : Event ℤ → Bool
  | .call _ => true
  | .next i _ =>
    match b.calls[i]? with
    | some (.restrictTo factId asked _, .found row) =>
      (activeRow b.facts factId).all fun current =>
        current.excludedIds.all fun p => (row.excludedIds ++ asked).contains p
    | _ => true

lemma unionCovers_of_eq_true {b : Board ℤ} {e : Event ℤ} (h : unionCovers b e = true) :
    UnionCovers b e := by
  cases e with
  | call c => trivial
  | next i now =>
    intro factId asked readers row hcall current hcurrent p hp
    rw [unionCovers, hcall] at h
    simp only [hcurrent, Option.all_some, List.all_eq_true] at h
    exact List.mem_of_elem_eq_true (h p hp)

/-- Bob is kept from the fact, and then Carol. -/
def oneAfterTheOther : List (Event ℤ) :=
  [.call (keepFrom "bob".toList), .next 0 [], .next 0 [],
    .call (keepFrom "carol".toList), .next 1 [], .next 1 []]

/-- Both calls read the fact before either writes. -/
def sideBySide : List (Event ℤ) :=
  [.call (keepFrom "bob".toList), .call (keepFrom "carol".toList),
    .next 0 [], .next 1 [], .next 0 [], .next 1 []]

theorem exclusions_kept_iff_oneAfterTheOther :
    ∃ trace t, Run (step sampleChrono noneStaged) openFact trace t ∧ ExclusionsKept trace t ∧
      excluded t.facts halfPast.factId = [.user "bob".toList, .user "carol".toList] := by
  have hboth : (oneAfterTheOther.foldlM (fun b e =>
      if unionCovers b e then step sampleChrono noneStaged b e else none) openFact).any (fun t =>
        excluded t.facts halfPast.factId = [.user "bob".toList, .user "carol".toList]) = true := by
    decide +kernel
  obtain ⟨trace, t, hrun, hchecked, htest⟩ := Run.exists_of_any_checked hboth
  refine ⟨trace, t, hrun, ?_, of_decide_eq_true htest⟩
  rw [exclusions_kept_iff hrun rfl]
  intro p hp
  exact unionCovers_of_eq_true (hchecked p hp)

/-- Whether Bob may read on though a call that keeps the fact from him has returned. -/
def bobLost (b : Board ℤ) : Bool :=
  (b.calls.any fun call =>
    match call with
    | (.restrictTo factId asked _, .returned true) =>
      factId = halfPast.factId ∧ .user "bob".toList ∈ asked
    | _ => false) ∧
  .user "bob".toList ∉ excluded b.facts halfPast.factId

/-- The second union is made from a row that does not name Bob yet, and is written over the
first. -/
theorem exclusion_lost :
    ∃ trace t, Run (step sampleChrono noneStaged) openFact trace t ∧
      ¬ ExclusionsKept trace t := by
  have hlost : (sideBySide.foldlM (step sampleChrono noneStaged) openFact).any bobLost = true := by
    decide +kernel
  obtain ⟨trace, t, hrun, htest⟩ := Run.exists_of_any hlost
  obtain ⟨hcalled, hout⟩ := of_decide_eq_true htest
  refine ⟨trace, t, hrun, ?_⟩
  rintro ⟨-, -, hasked⟩
  refine hout (hasked halfPast.factId (.user "bob".toList) ?_)
  obtain ⟨call, hmem, hcall⟩ := List.any_eq_true.mp hcalled
  split at hcall
  · next factId asked readers =>
    obtain ⟨rfl, hbob⟩ := of_decide_eq_true hcall
    exact ⟨asked, readers, hmem, hbob⟩
  · cases hcall


end Fences

end FactIndex

end Mwe
