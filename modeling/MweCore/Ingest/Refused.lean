import MweCore.Ingest.Weld

/-!
# A replacement that is refused

A weld writes the audience on the successor first, since that write tells whether the successor is
there; only then does it look for the fact to be retired.  When that one is in neither store as a
live row the replacement is refused, and the successor keeps the audience it was given.

`weld_refused` says what a refused replacement leaves: every row but the successor's as it was, and
the successor's too when nothing of the audience travels or the successor is not there.
`refused_weld_widens` is a replacement that comes after another one.
-/

namespace Mwe

namespace Store

/-! ## The two ends of a replacement -/

/-- Whether an audience can be written on a successor: its fact is there, or its claim waits. -/
def TakesAudience (s : Store) (successor : FactId) : Prop :=
  (FactIndex.activeRow s.facts successor).isSome ∨ CaptureBuffer.isBuffered s.queue successor

instance (s : Store) (successor : FactId) : Decidable (s.TakesAudience successor) :=
  inferInstanceAs (Decidable (_ ∨ _))

/-- Whether a fact can be retired: it is neither superseded nor tombstoned, or its claim waits. -/
def CanRetire (s : Store) (target : FactId) : Prop :=
  (∃ r ∈ s.facts, r.factId = target ∧ r.supersededAt = none ∧ r.deletedAt = none) ∨
    CaptureBuffer.isBuffered s.queue target

/-- The second store is the first with another audience on the successor: on its fact when there is
one, and else on the claim that waits. -/
structure Widened (s s' : Store) (successor : FactId) (allow : List Principal) (now : Str) :
    Prop where
  facts : ∀ id, s'.facts.get? id = (s.facts.get? id).map fun r =>
    if id = successor ∧ r.deletedAt = none then r.withAllow allow now else r
  queue : ∀ id, s'.queue.get? id = (s.queue.get? id).map fun cap =>
    if id = successor ∧ FactIndex.activeRow s.facts successor = none ∧ cap.status = .buffered then
      cap.withAllow allow
    else cap

/-! ## Writes that pick no row -/

section Laws

open Sql.Table

/-- An update that picks no row changes nothing. -/
lemma update_eq_self {ρ κ : Type*} {key : ρ → κ} {t : Sql.Table key} {sel : ρ → Bool}
    {set : ρ → ρ} {hset : ∀ r, key (set r) = key r} (h : ∀ r ∈ t, sel r = false) :
    t.update sel set hset = t := by
  have hrows : (t.update sel set hset).rows = t.rows := by
    unfold Sql.Table.update
    conv_rhs => rw [← List.map_id t.rows]
    exact List.map_congr_left fun r hr => by rw [h r hr]; rfl
  cases t
  simpa [Sql.Table.update] using hrows

variable {T : Type*} [LinearOrder T] {chrono : Chrono T} {s s' : Store} {target successor : FactId}
  {audience : List Principal} {sender : Principal} {turnNow : T} {inheritedAt weldedAt now : Str}

/-- The rows a replacement would mark. -/
lemma markSuperseded_touched {facts : FactTable} {staged : Option Str} :
    0 < (FactIndex.markSuperseded chrono facts staged target successor turnNow now).1 ↔
      ∃ r ∈ facts, r.factId = target ∧ r.supersededAt = none ∧ r.deletedAt = none := by
  unfold FactIndex.markSuperseded
  dsimp only
  rw [List.countP_pos_iff]
  simp only [Bool.and_eq_true, beq_iff_eq, Option.isNone_iff_eq_none, and_assoc]
  rfl

/-- Marking no row leaves the index as it was. -/
lemma markSuperseded_untouched {facts : FactTable} {staged : Option Str}
    (h : ¬ ∃ r ∈ facts, r.factId = target ∧ r.supersededAt = none ∧ r.deletedAt = none) :
    (FactIndex.markSuperseded chrono facts staged target successor turnNow now).2 = facts := by
  unfold FactIndex.markSuperseded
  refine @update_eq_self _ _ _ _ _ _ (FactRow.factId_superseded _ _ _) fun r hr => ?_
  rw [Bool.eq_false_iff]
  intro hsel
  simp only [Bool.and_eq_true, beq_iff_eq, Option.isNone_iff_eq_none] at hsel
  exact h ⟨r, hr, hsel.1.1, hsel.1.2, hsel.2⟩

/-- A fact is retired when it can be, and else nothing changes. -/
lemma weldSupersede_cases (s : Store) :
    s.CanRetire target ∧ (s.weldSupersede chrono target successor turnNow now).1 = true ∨
      ¬ s.CanRetire target ∧
        s.weldSupersede chrono target successor turnNow now = (false, s) := by
  unfold weldSupersede CanRetire
  dsimp only
  by_cases hlive : ∃ r ∈ s.facts, r.factId = target ∧ r.supersededAt = none ∧ r.deletedAt = none
  · rw [if_pos (markSuperseded_touched.mpr hlive)]
    exact .inl ⟨.inl hlive, rfl⟩
  · rw [if_neg (mt markSuperseded_touched.mp hlive), markSuperseded_untouched hlive]
    unfold CaptureBuffer.isBuffered CaptureBuffer.closeValidity
    cases hwaits : CaptureBuffer.waitingRow s.queue target with
    | some cap => exact .inl ⟨.inr rfl, rfl⟩
    | none =>
      right
      simp [hlive]

/-- An audience lands on a successor that takes one, and else nothing changes. -/
lemma inheritAudience_cases (s : Store) (allow : List Principal) :
    s.TakesAudience successor ∧ (s.inheritAudience successor allow now).1 = true ∧
        s.Widened (s.inheritAudience successor allow now).2 successor allow now ∨
      ¬ s.TakesAudience successor ∧ s.inheritAudience successor allow now = (false, s) := by
  unfold TakesAudience inheritAudience FactIndex.inheritAllow
  cases hrow : FactIndex.activeRow s.facts successor with
  | some r =>
    refine .inl ⟨.inl rfl, rfl, fun id => ?_, fun id => ?_⟩
    · simp [FactIndex.get?_updateActive]
    · simp [hrow]
  | none =>
    have hfacts : FactIndex.updateActive s.facts successor (FactRow.withAllow allow now)
        (FactRow.factId_withAllow allow now) = s.facts := by
      refine update_eq_self fun r hr => ?_
      rw [Bool.eq_false_iff]
      intro hsel
      obtain ⟨hid, hlive⟩ : r.factId = successor ∧ r.deletedAt = none := by simpa using hsel
      exact FactIndex.activeRow_eq_none hrow hr hid hlive
    simp only [hfacts, Option.isSome_none, Bool.false_eq_true, false_or]
    unfold CaptureBuffer.isBuffered CaptureBuffer.inheritAllow
    cases hwaits : CaptureBuffer.waitingRow s.queue successor with
    | some cap =>
      refine .inl ⟨rfl, rfl, fun id => ?_, fun id => ?_⟩
      · cases hget : s.facts.get? id with
        | none => rfl
        | some r =>
          obtain ⟨hmem, hid⟩ := get?_eq_some_iff.mp hget
          rw [Option.map_some, if_neg]
          rintro ⟨rfl, hlive⟩
          exact FactIndex.activeRow_eq_none hrow hmem hid hlive
      · simp [CaptureBuffer.get?_updateWaiting, hrow]
    | none =>
      have hqueue : CaptureBuffer.updateWaiting s.queue successor (BufferedCapture.withAllow allow)
          (BufferedCapture.captureId_withAllow allow) = s.queue := by
        refine update_eq_self fun cap hcap => ?_
        rw [Bool.eq_false_iff]
        intro hsel
        obtain ⟨hid, hstatus⟩ : cap.captureId = successor ∧ cap.status = .buffered := by
          simpa using hsel
        have hget : s.queue.get? successor = some cap := get?_eq_some_iff.mpr ⟨hcap, hid⟩
        rw [CaptureBuffer.waitingRow, hget, Option.filter_some_pos (by simpa using hstatus)]
          at hwaits
        cases hwaits
      right
      simp [hqueue]

/-- What could be retired still can be when another audience is on the successor. -/
lemma Widened.canRetire {allow : List Principal} (h : s.Widened s' successor allow now)
    (hretire : s.CanRetire target) : s'.CanRetire target := by
  rcases hretire with ⟨r, hr, hid, hstands, hlive⟩ | hwaits
  · left
    have hget' := h.facts target
    rw [get?_eq_some_iff.mpr ⟨hr, hid⟩, Option.map_some] at hget'
    obtain ⟨hr', hid'⟩ := get?_eq_some_iff.mp hget'
    refine ⟨_, hr', hid', ?_⟩
    split_ifs
    · exact ⟨hstands, hlive⟩
    · exact ⟨hstands, hlive⟩
  · right
    obtain ⟨cap, hcap⟩ := Option.isSome_iff_exists.mp hwaits
    obtain ⟨hget, hstatus⟩ := Option.filter_eq_some_iff.mp hcap
    have hget' := h.queue target
    rw [hget, Option.map_some] at hget'
    rw [CaptureBuffer.isBuffered, CaptureBuffer.waitingRow, hget', Option.filter_some_pos]
    · rfl
    · split_ifs
      · exact hstatus
      · exact hstatus

/-- A replacement that is refused leaves everything as it was when nothing of the audience travels
or the successor is in neither store; else the fact to be retired is in neither store as a live
row, and the successor has been given the audience all the same. -/
theorem weld_refused
    (h : s.weldWithAudience chrono target successor audience sender turnNow inheritedAt weldedAt =
      (false, s')) :
    (inheritedAudience audience sender = [] ∨ ¬ s.TakesAudience successor → s' = s) ∧
      (inheritedAudience audience sender ≠ [] → s.TakesAudience successor →
        ¬ s.CanRetire target ∧
          s.Widened s' successor (inheritedAudience audience sender) inheritedAt) := by
  unfold weldWithAudience at h
  dsimp only at h
  split at h
  · next hempty =>
    have hnothing : inheritedAudience audience sender = [] := List.isEmpty_iff.mp hempty
    refine ⟨fun _ => ?_, fun hsome => absurd hnothing hsome⟩
    split at h
    · rcases @weldSupersede_cases T _ chrono target successor turnNow weldedAt s with
        ⟨-, hdone⟩ | ⟨-, hsame⟩
      · rw [h] at hdone
        cases hdone
      · exact (Prod.mk.inj (h.symm.trans hsame)).2
    · exact (Prod.mk.inj h).2.symm
  · next hsome =>
    have hsome : inheritedAudience audience sender ≠ [] := by simpa using hsome
    rcases @inheritAudience_cases successor inheritedAt s (inheritedAudience audience sender) with
      ⟨htakes, hlands, hwidened⟩ | ⟨hno, hsame⟩
    · refine ⟨fun hcase => ?_, fun _ _ => ?_⟩
      · rcases hcase with hnothing | hno
        · exact absurd hnothing hsome
        · exact absurd htakes hno
      · split at h
        · next s₁ hinherit =>
          rw [hinherit] at hwidened
          rcases @weldSupersede_cases T _ chrono target successor turnNow weldedAt s₁ with
            ⟨-, hdone⟩ | ⟨hretire, hsame⟩
          · rw [h] at hdone
            cases hdone
          · obtain ⟨-, rfl⟩ := Prod.mk.inj (h.symm.trans hsame)
            exact ⟨mt hwidened.canRetire hretire, hwidened⟩
        · next hinherit =>
          rw [hinherit] at hlands
          cases hlands
    · refine ⟨fun _ => ?_, fun _ htakes => absurd htakes hno⟩
      rw [hsame] at h
      exact (Prod.mk.inj h).2.symm

end Laws

/-! ## A replacement that comes second -/

open FactIndex (sampleChrono)

/-- Another fact in the place of the first, in other words again. -/
def wordedAnew : NewFact :=
  { reworded [] with factId := ⟨"018f1234-5678-7abc-9def-0123456789ce".toList, isFactId_ce⟩ }

/-- A store in which the first of two facts has just been replaced by a third. -/
def onceReplaced : Store :=
  (Store.weldWithAudience sampleChrono
    { toldTwice [] with facts := FactIndex.insertIfAbsent (toldTwice []).facts wordedAnew [] }
    fenced.factId wordedAnew.factId fenced.allowIds (.user "alice".toList) 0 [] []).2

/-- The second is to take the place of the first as well. -/
def replacedAgain : Bool × Store :=
  onceReplaced.weldWithAudience sampleChrono fenced.factId (reworded []).factId
    fenced.allowIds (.user "alice".toList) 0 [] []

theorem weld_refused_replacedAgain :
    ¬ onceReplaced.CanRetire fenced.factId ∧
      onceReplaced.Widened replacedAgain.2 (reworded []).factId [.group "parents".toList] [] := by
  have hagain : replacedAgain.1 = false ∧ onceReplaced.TakesAudience (reworded []).factId ∧
      inheritedAudience fenced.allowIds (.user "alice".toList) = [.group "parents".toList] := by
    decide +kernel
  obtain ⟨hrefused, htakes, hinherited⟩ := hagain
  have hweld : onceReplaced.weldWithAudience sampleChrono fenced.factId (reworded []).factId
      fenced.allowIds (.user "alice".toList) 0 [] [] = (false, replacedAgain.2) :=
    Prod.ext hrefused rfl
  have hleaves := (weld_refused hweld).2
  rw [hinherited] at hleaves
  exact hleaves (by simp) htakes

/-- The replacement is refused, and the parents have become readers of the successor. -/
theorem refused_weld_widens :
    replacedAgain.1 = false ∧
      ((onceReplaced.facts.get? (reworded []).factId).map FactRow.allowIds = some []) ∧
      ((replacedAgain.2.facts.get? (reworded []).factId).map FactRow.allowIds =
        some [.group "parents".toList]) := by
  decide +kernel

end Store

end Mwe
