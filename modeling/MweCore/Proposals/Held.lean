import MweCore.Lib.Run
import MweCore.Proposals.SlotConflict

/-!
# A parked claim and the verdict on its question

Four actors work on a question and on the claim it parks: the turn that asks (question first, row
second), whoever applies an answer, the expiry of the question, and the sweep of claims nobody asks
about.  `step` runs one statement of one of them, in any order.

The claim should reach the queue exactly if the verdict on record keeps it.  An answer that
overtakes the row of its claim, or is overtaken by another between its statements, breaks that:
`Orderly` says of each statement what it must find, and `follows_verdict` that it is enough.
-/

namespace Mwe.Proposals

open CaptureBuffer Sql

variable {T : Type*} [LinearOrder T] (chrono : Chrono T)

/-! ## Actors and their statements -/

/-- What an actor is about to do. -/
inductive Actor
  /-- open the question, and park the claim it is about -/
  | emitting (c : SlotConflict) (claim : Option BufferedCapture)
  /-- write the row of the parked claim -/
  | parking (claim : BufferedCapture)
  /-- close the stored value an answer retires -/
  | closing (q : SlotQuestion)
  /-- release or drop the parked claim -/
  | settling (q : SlotQuestion) (verdict : SlotVerdict)
  /-- record the verdict -/
  | marking (q : SlotQuestion) (verdict : SlotVerdict)
  /-- expire the questions that are overdue -/
  | flipping (cutoff : Str) (doomed : List FactId)
  /-- drop the claims of the questions that were overdue -/
  | dropping (doomed : List FactId)

/-- The tables, and the actors at work. -/
structure Desk where
  questions : QuestionTable
  queue : QueueTable
  facts : FactTable
  actors : ℕ → Option Actor

/-- The next statement of an actor, and what it draws or reads off a clock. -/
inductive Event (T : Type*)
  | lookUp (i : ℕ) (c : SlotConflict) (claim : Option BufferedCapture)
  | emit (i : ℕ) (proposalId : Str) (minted : FactId) (timeoutAt : Str)
  | park (i : ℕ) (capturedAt : Str)
  | read (i : ℕ) (proposalId : Str) (answer : Option Str)
  | close (i : ℕ) (memoryNow : T) (now : Str)
  | settle (i : ℕ)
  | mark (i : ℕ)
  | readDoomed (i : ℕ) (cutoff : Str)
  | flip (i : ℕ)
  | drop (i : ℕ)
  | sweep (cutoff : Str)

/-- A desk with another actor in a place. -/
def Desk.put (d : Desk) (i : ℕ) (a : Option Actor) : Desk :=
  { d with actors := Function.update d.actors i a }

/-- Whether no row and no question has an id. -/
def isFresh (d : Desk) (minted : FactId) : Bool :=
  (d.queue.get? minted).isNone &&
    d.questions.rows.all fun q => decide (q.parkedCaptureId ≠ some minted)

/-- The stored value of a question stops being asserted, in favour of its successor if it has
one. -/
def retireKept (d : Desk) (q : SlotQuestion) (memoryNow : T) (now : Str) : FactTable :=
  match q.conflict.successor with
  | some successor =>
    (FactIndex.markSuperseded chrono d.facts
      ((d.queue.get? successor).bind BufferedCapture.validFrom) q.conflict.keptFactId successor
      memoryNow now).2
  | none =>
    (FactIndex.closeValidity chrono d.facts q.conflict.keptFactId
      (boundFromInstant chrono memoryNow) "contradicted".toList none memoryNow now).2

/-- Release or drop the claim a question parks. -/
def settleClaim (queue : QueueTable) (q : SlotQuestion) (verdict : SlotVerdict) : QueueTable :=
  match q.parkedCaptureId with
  | none => queue
  | some parked => if verdict.keepsClaim then releaseHeld queue parked else discardHeld queue parked

/-- One statement. -/
def step (d : Desk) : Event T → Option Desk
  | .lookUp i c claim =>
    if (d.actors i).isSome then none
    else if (pendingSlotConflict d.questions c).isSome then some d
    else some (d.put i (some (.emitting c claim)))
  | .emit i proposalId minted timeoutAt =>
    match d.actors i with
    | some (.emitting c claim) =>
      if isFresh d minted then
        match emitSlotConflict d.questions c proposalId (claim.map fun _ => minted) timeoutAt with
        | none => some (d.put i none)
        | some questions =>
          some (Desk.put { d with questions } i
            (claim.map fun claim => .parking { claim with captureId := minted }))
      else none
    | _ => none
  | .park i capturedAt =>
    match d.actors i with
    | some (.parking claim) =>
      some (Desk.put { d with queue := parkCapture d.queue { claim with capturedAt } } i none)
    | _ => none
  | .read i proposalId answer =>
    if (d.actors i).isSome then none
    else match d.questions.get? proposalId with
      | none => some d
      | some q =>
        if q.status ≠ .pending then some d
        else
          let verdict := slotVerdict q.conflict.manyValues answer
          some (d.put i (some (if verdict = .retire then .closing q else .settling q verdict)))
  | .close i memoryNow now =>
    match d.actors i with
    | some (.closing q) =>
      some (Desk.put { d with facts := retireKept chrono d q memoryNow now } i
        (some (.settling q .retire)))
    | _ => none
  | .settle i =>
    match d.actors i with
    | some (.settling q verdict) =>
      some (Desk.put { d with queue := settleClaim d.queue q verdict } i
        (some (.marking q verdict)))
    | _ => none
  | .mark i =>
    match d.actors i with
    | some (.marking q verdict) =>
      some (Desk.put { d with questions := markApplied d.questions q.proposalId verdict } i none)
    | _ => none
  | .readDoomed i cutoff =>
    if (d.actors i).isSome then none
    else some (d.put i (some (.flipping cutoff (doomed d.questions cutoff))))
  | .flip i =>
    match d.actors i with
    | some (.flipping cutoff doomed) =>
      some (Desk.put { d with questions := expireOverdue d.questions cutoff } i
        (some (.dropping doomed)))
    | _ => none
  | .drop i =>
    match d.actors i with
    | some (.dropping (parked :: doomed)) =>
      some (Desk.put { d with queue := discardHeld d.queue parked } i (some (.dropping doomed)))
    | some (.dropping []) => some (d.put i none)
    | _ => none
  | .sweep cutoff => some { d with queue := sweepOrphanHeld d.queue d.questions cutoff }

/-! ## The verdict and the claim -/

/-- The claim a closed question parked is in the queue exactly if the verdict on record keeps it. -/
def FollowsVerdict (d : Desk) : Prop :=
  ∀ q ∈ d.questions, ∀ c, q.parkedCaptureId = some c → q.status ≠ .pending →
    (statusOf d.queue c = some .buffered ↔ q.Keeps)

/-- After a sweep no parked claim of a closed question is left that was written before the
cutoff. -/
def SweptClean (d : Desk) (e : Event T) : Prop :=
  ∀ cutoff, e = .sweep cutoff → ∀ d', step chrono d e = some d' →
    ∀ q ∈ d'.questions, ∀ c, q.parkedCaptureId = some c → q.status ≠ .pending →
      ∀ cap, d'.queue.get? c = some cap → cap.status = .held → ¬ cap.capturedAt < cutoff

/-- An answer that keeps the claim of a question has released it and is about to be recorded. -/
def Released (d : Desk) (proposalId : Str) : Prop :=
  ∃ i q v, d.actors i = some (.marking q v) ∧ q.proposalId = proposalId ∧ v.keepsClaim = true

/-- What a statement must find for the claim to follow the verdict.  A release finds the claim in
its row and the question open; and no question is closed against its claim while an answer that
has released it is about to be recorded. -/
def Orderly (d : Desk) : Event T → Prop
  | .settle i => ∀ q v c, d.actors i = some (.settling q v) → v.keepsClaim = true →
      q.parkedCaptureId = some c → (statusOf d.queue c).isSome = true ∧
        ∀ q' ∈ d.questions, q'.proposalId = q.proposalId → q'.status = .pending
  | .mark i => ∀ q v, d.actors i = some (.marking q v) → v.keepsClaim = false →
      ∀ q' ∈ d.questions, q'.proposalId = q.proposalId → q'.status = .pending →
        ¬ Released d q.proposalId
  | .flip i => ∀ cutoff doomed, d.actors i = some (.flipping cutoff doomed) →
      ∀ q ∈ d.questions, q.status = .pending → q.timeoutAt < cutoff → ¬ Released d q.proposalId
  | _ => True

/-! ## What holds along an orderly run -/

/-- What is known of an actor: the question it has read is in the table, a claim it has released is
in the queue, and the questions whose claims it is about to drop are overdue or closed. -/
def ActorOk (d : Desk) : Actor → Prop
  | .emitting _ _ | .parking _ => True
  | .closing q | .settling q _ => Asked d q
  | .marking q v => Asked d q ∧ (v.keepsClaim = true → ∀ c, q.parkedCaptureId = some c →
      statusOf d.queue c = some .buffered)
  | .flipping cutoff doomed => ∀ c ∈ doomed, ∃ q ∈ d.questions, q.parkedCaptureId = some c ∧
      (q.status = .pending → q.timeoutAt < cutoff)
  | .dropping doomed => ∀ c ∈ doomed, ∃ q ∈ d.questions, q.parkedCaptureId = some c ∧
      q.status ≠ .pending
where
  /-- the question an answer has read is in the table, whatever became of it -/
  Asked (d : Desk) (q : SlotQuestion) : Prop :=
    ∃ q' ∈ d.questions, q'.proposalId = q.proposalId ∧ q'.parkedCaptureId = q.parkedCaptureId

/-- The invariant of an orderly run. -/
structure Inv (d : Desk) : Prop where
  unique : ∀ q ∈ d.questions, ∀ q' ∈ d.questions, ∀ c, q.parkedCaptureId = some c →
    q'.parkedCaptureId = some c → q = q'
  actors : ∀ i a, d.actors i = some a → ActorOk d a
  parked : ∀ q ∈ d.questions, ∀ c, q.parkedCaptureId = some c → ∀ s,
    statusOf d.queue c = some s → s = .held ∨ s = .buffered
  released : ∀ q ∈ d.questions, ∀ c, q.parkedCaptureId = some c → q.status = .pending →
    statusOf d.queue c = some .buffered → Released d q.proposalId
  follows : FollowsVerdict d

section Preservation

variable {d d' : Desk} {i : ℕ}

/-- Putting an actor in a place changes no other place. -/
lemma actors_put {a : Option Actor} {j : ℕ} {b : Actor} (h : (d.put i a).actors j = some b) :
    j = i ∧ a = some b ∨ j ≠ i ∧ d.actors j = some b := by
  change Function.update d.actors i a j = some b at h
  by_cases hj : j = i
  · rw [hj, Function.update_self] at h
    exact .inl ⟨hj, h⟩
  · rw [Function.update_of_ne hj] at h
    exact .inr ⟨hj, h⟩

/-- An actor that is about to record nothing can be replaced without taking a release back. -/
lemma Released.put {p : Str} {a : Option Actor} (h : Released d p)
    (hi : ∀ q v, d.actors i ≠ some (.marking q v)) : Released (d.put i a) p := by
  obtain ⟨j, q, v, hj, hp, hv⟩ := h
  have hne : j ≠ i := by
    rintro rfl
    exact hi q v hj
  refine ⟨j, q, v, ?_, hp, hv⟩
  change Function.update d.actors i a j = _
  rwa [Function.update_of_ne hne]

/-- What is known of an actor outlives statements that only add questions, close them, and put
claims in the queue. -/
lemma ActorOk.mono {a : Actor} (h : ActorOk d a)
    (hquestions : ∀ q ∈ d.questions, ∃ q' ∈ d'.questions, q'.proposalId = q.proposalId ∧
      q'.parkedCaptureId = q.parkedCaptureId ∧ q'.timeoutAt = q.timeoutAt ∧
        (q'.status = .pending → q.status = .pending))
    (hqueue : ∀ c, statusOf d.queue c = some .buffered → statusOf d'.queue c = some .buffered) :
    ActorOk d' a := by
  have hasked : ∀ q, ActorOk.Asked d q → ActorOk.Asked d' q := by
    rintro q ⟨x, hx, hpid, hparked⟩
    obtain ⟨y, hy, hypid, hyparked, -⟩ := hquestions x hx
    exact ⟨y, hy, hypid.trans hpid, hyparked.trans hparked⟩
  cases a with
  | emitting => trivial
  | parking => trivial
  | closing q => exact hasked q h
  | settling q v => exact hasked q h
  | marking q v => exact ⟨hasked q h.1, fun hv c hc => hqueue c (h.2 hv c hc)⟩
  | flipping cutoff doomed =>
    intro c hc
    obtain ⟨q, hq, hparked, hdue⟩ := h c hc
    obtain ⟨q', hq', -, hparked', htimeout, hstatus⟩ := hquestions q hq
    exact ⟨q', hq', hparked'.trans hparked, fun hp => htimeout ▸ hdue (hstatus hp)⟩
  | dropping doomed =>
    intro c hc
    obtain ⟨q, hq, hparked, hclosed⟩ := h c hc
    obtain ⟨q', hq', -, hparked', -, hstatus⟩ := hquestions q hq
    exact ⟨q', hq', hparked'.trans hparked, fun hp => hclosed (hstatus hp)⟩

/-- A statement that leaves the questions alone, and no claim in or out of the queue, keeps the
invariant. -/
lemma Inv.frame (h : Inv d) (hquestions : d'.questions = d.questions)
    (hbuffered : ∀ c, statusOf d'.queue c = some .buffered ↔ statusOf d.queue c = some .buffered)
    (hparked : ∀ c s, statusOf d'.queue c = some s → statusOf d.queue c = some s ∨ s = .held)
    (hactors : ∀ j b, d'.actors j = some b → d.actors j = some b ∨ ActorOk d' b)
    (hreleased : ∀ p, Released d p → Released d' p) : Inv d' where
  unique := by
    rw [hquestions]
    exact h.unique
  actors := by
    intro j b hb
    rcases hactors j b hb with hold | hok
    · refine (h.actors j b hold).mono ?_ fun c => (hbuffered c).mpr
      intro q hq
      exact ⟨q, hquestions ▸ hq, rfl, rfl, rfl, id⟩
    · exact hok
  parked := by
    intro q hq c hc s hs
    rcases hparked c s hs with hold | rfl
    · exact h.parked q (hquestions ▸ hq) c hc s hold
    · exact .inl rfl
  released := by
    intro q hq c hc hpending hs
    exact hreleased _ (h.released q (hquestions ▸ hq) c hc hpending ((hbuffered c).mp hs))
  follows := by
    intro q hq c hc hclosed
    rw [hbuffered]
    exact h.follows q (hquestions ▸ hq) c hc hclosed

/-- A statement that closes questions keeps the invariant when each is closed the way its claim
went. -/
lemma Inv.close (h : Inv d) {sel : SlotQuestion → Bool} {set : SlotQuestion → SlotQuestion}
    (hquestions : ∀ q', q' ∈ d'.questions ↔ ∃ q ∈ d.questions, (if sel q then set q else q) = q')
    (hqueue : d'.queue = d.queue)
    (hsame : ∀ q, (set q).proposalId = q.proposalId ∧
      (set q).parkedCaptureId = q.parkedCaptureId ∧ (set q).timeoutAt = q.timeoutAt ∧
        (set q).status ≠ .pending)
    (hverdict : ∀ q ∈ d.questions, sel q = true → ∀ c, q.parkedCaptureId = some c →
      (statusOf d.queue c = some .buffered ↔ (set q).Keeps))
    (hactors : ∀ j b, d'.actors j = some b → d.actors j = some b ∨ ActorOk d' b)
    (hreleased : ∀ q ∈ d.questions, sel q = false → q.status = .pending →
      Released d q.proposalId → Released d' q.proposalId) : Inv d' := by
  have hmem : ∀ q' ∈ d'.questions, ∃ q ∈ d.questions, (if sel q then set q else q) = q' :=
    fun q' => (hquestions q').mp
  have hparked : ∀ q, (if sel q then set q else q).parkedCaptureId = q.parkedCaptureId := by
    intro q
    split_ifs
    · exact (hsame q).2.1
    · rfl
  constructor
  · intro q hq q' hq' c hc hc'
    obtain ⟨x, hx, rfl⟩ := hmem q hq
    obtain ⟨x', hx', rfl⟩ := hmem q' hq'
    rw [hparked] at hc hc'
    rw [h.unique x hx x' hx' c hc hc']
  · intro j b hb
    rcases hactors j b hb with hold | hok
    · refine (h.actors j b hold).mono ?_ fun c hc => hqueue ▸ hc
      intro q hq
      refine ⟨if sel q then set q else q, (hquestions _).mpr ⟨q, hq, rfl⟩, ?_, hparked q, ?_, ?_⟩
      · split_ifs
        · exact (hsame q).1
        · rfl
      · split_ifs
        · exact (hsame q).2.2.1
        · rfl
      · split_ifs
        · exact fun hp => absurd hp (hsame q).2.2.2
        · exact id
    · exact hok
  · intro q hq c hc s hs
    obtain ⟨x, hx, rfl⟩ := hmem q hq
    rw [hparked] at hc
    exact h.parked x hx c hc s (hqueue ▸ hs)
  · intro q hq c hc hpending hs
    obtain ⟨x, hx, rfl⟩ := hmem q hq
    rw [hparked] at hc
    rw [hqueue] at hs
    by_cases hsel : sel x = true
    · rw [if_pos hsel] at hpending
      exact absurd hpending (hsame x).2.2.2
    · rw [if_neg hsel] at hpending ⊢
      exact hreleased x hx (by simpa using hsel) hpending (h.released x hx c hc hpending hs)
  · intro q hq c hc hclosed
    obtain ⟨x, hx, rfl⟩ := hmem q hq
    rw [hparked] at hc
    rw [hqueue]
    by_cases hsel : sel x = true
    · rw [if_pos hsel]
      exact hverdict x hx hsel c hc
    · rw [if_neg hsel] at hclosed ⊢
      exact h.follows x hx c hc hclosed

/-- A question that is opened about a fresh claim keeps the invariant. -/
lemma Inv.emit (h : Inv d) {q : SlotQuestion} (hins : d.questions.insert q = some d'.questions)
    (hpending : q.status = .pending)
    (hfresh : ∀ c, q.parkedCaptureId = some c → isFresh d c = true) (hqueue : d'.queue = d.queue)
    (hactors : ∀ j b, d'.actors j = some b → d.actors j = some b ∨ ActorOk d' b)
    (hreleased : ∀ p, Released d p → Released d' p) : Inv d' := by
  have hmem : ∀ x, x ∈ d'.questions ↔ x ∈ d.questions ∨ x = q := fun x => Table.mem_of_insert hins
  have hnone : ∀ c, q.parkedCaptureId = some c → statusOf d.queue c = none := by
    intro c hc
    have hget : d.queue.get? c = none := by
      simpa using (Bool.and_eq_true_iff.mp (hfresh c hc)).1
    rw [statusOf, hget]
    rfl
  have hnew : ∀ x ∈ d.questions, ∀ c, x.parkedCaptureId = some c → q.parkedCaptureId ≠ some c := by
    intro x hx c hc hq
    have hall := List.all_eq_true.mp (Bool.and_eq_true_iff.mp (hfresh c hq)).2 x hx
    exact of_decide_eq_true hall hc
  constructor
  · intro x hx y hy c hxc hyc
    rcases (hmem x).mp hx with hx | rfl
    · rcases (hmem y).mp hy with hy | rfl
      · exact h.unique x hx y hy c hxc hyc
      · exact absurd hyc (hnew x hx c hxc)
    · rcases (hmem y).mp hy with hy | rfl
      · exact absurd hxc (hnew y hy c hyc)
      · rfl
  · intro j b hb
    rcases hactors j b hb with hold | hok
    · refine (h.actors j b hold).mono ?_ fun c hc => hqueue ▸ hc
      intro x hx
      exact ⟨x, (hmem x).mpr (.inl hx), rfl, rfl, rfl, id⟩
    · exact hok
  · intro x hx c hc s hs
    rw [hqueue] at hs
    rcases (hmem x).mp hx with hx | rfl
    · exact h.parked x hx c hc s hs
    · rw [hnone c hc] at hs
      cases hs
  · intro x hx c hc hp hs
    rw [hqueue] at hs
    rcases (hmem x).mp hx with hx | rfl
    · exact hreleased _ (h.released x hx c hc hp hs)
    · rw [hnone c hc] at hs
      cases hs
  · intro x hx c hc hclosed
    rw [hqueue]
    rcases (hmem x).mp hx with hx | rfl
    · exact h.follows x hx c hc hclosed
    · exact absurd hpending hclosed

/-- A release keeps the invariant when it finds the claim in its row and the question open. -/
lemma Inv.release (h : Inv d) {q : SlotQuestion} {v : SlotVerdict} {c : FactId}
    (hactor : d.actors i = some (.settling q v)) (hv : v.keepsClaim = true)
    (hc : q.parkedCaptureId = some c) (hrow : (statusOf d.queue c).isSome = true)
    (hopen : ∀ q' ∈ d.questions, q'.proposalId = q.proposalId → q'.status = .pending) :
    Inv (Desk.put { d with queue := releaseHeld d.queue c } i (some (.marking q v))) := by
  obtain ⟨asked, hasked, hpid, hparked⟩ : ActorOk.Asked d q := h.actors i _ hactor
  have hparked : asked.parkedCaptureId = some c := hparked.trans hc
  have hstands : ∀ x, statusOf (releaseHeld d.queue c) x =
      if x = c then some .buffered else statusOf d.queue x := by
    intro x
    rw [statusOf_releaseHeld]
    by_cases hx : x = c
    · subst hx
      obtain ⟨s, hs⟩ := Option.isSome_iff_exists.mp hrow
      rcases h.parked asked hasked x hparked s hs with rfl | rfl
      · simp [hs]
      · simp [hs]
    · simp [hx]
  have hstay : ∀ q' v', d.actors i ≠ some (.marking q' v') := by
    intro q' v' h'
    rw [hactor] at h'
    cases h'
  constructor
  · exact h.unique
  · intro j b hb
    rcases actors_put hb with ⟨-, hb⟩ | ⟨-, hb⟩
    · obtain rfl := Option.some.inj hb
      refine ⟨⟨asked, hasked, hpid, hparked.trans hc.symm⟩, fun _ c' hc' => ?_⟩
      obtain rfl := Option.some.inj (hc.symm.trans hc')
      exact (hstands c).trans (if_pos rfl)
    · refine (h.actors j b hb).mono (fun x hx => ⟨x, hx, rfl, rfl, rfl, id⟩) fun x hx => ?_
      exact (hstands x).trans (by rw [hx, ite_self])
  · intro x hx c' hc' s hs
    have hs' := (hstands c').symm.trans hs
    split_ifs at hs' with hcc
    · exact .inr (Option.some.inj hs').symm
    · exact h.parked x hx c' hc' s hs'
  · intro x hx c' hc' hp hs
    have hs' := (hstands c').symm.trans hs
    split_ifs at hs' with hcc
    · obtain rfl := h.unique x hx asked hasked c (hcc ▸ hc') hparked
      exact ⟨i, q, v, Function.update_self .., hpid.symm, hv⟩
    · exact Released.put (d := d) (h.released x hx c' hc' hp hs') hstay
  · intro x hx c' hc' hclosed
    have hne : c' ≠ c := by
      rintro rfl
      obtain rfl := h.unique x hx asked hasked c' hc' hparked
      exact hclosed (hopen x hx hpid)
    have hs := (hstands c').trans (if_neg hne)
    change statusOf (releaseHeld d.queue c) c' = _ ↔ _
    rw [hs]
    exact h.follows x hx c' hc' hclosed

/-- An actor about to record nothing may be replaced by one of which all that should be known is. -/
lemma Inv.put (h : Inv d) {a : Option Actor} (hi : ∀ q v, d.actors i ≠ some (.marking q v))
    (hok : ∀ b, a = some b → ActorOk d b) : Inv (d.put i a) := by
  refine h.frame rfl (fun _ => Iff.rfl) (fun _ _ hs => .inl hs) (fun j b hb => ?_)
    fun p hp => hp.put hi
  rcases actors_put hb with ⟨-, hb⟩ | ⟨-, hb⟩
  · refine .inr ((hok b hb).mono ?_ fun _ => id)
    exact fun q hq => ⟨q, hq, rfl, rfl, rfl, id⟩
  · exact .inl hb

/-- Another fact index changes nothing of this. -/
lemma Inv.withFacts (h : Inv d) (facts : FactTable) : Inv { d with facts } := by
  refine h.frame rfl (fun _ => Iff.rfl) (fun _ _ hs => .inl hs) (fun j b hb => .inl hb)
    fun p hp => hp

/-- Nor does a queue with the same claims in it and no other claims parked behind a question. -/
lemma Inv.withQueue (h : Inv d) {queue : QueueTable}
    (hstands : ∀ c, statusOf queue c = statusOf d.queue c ∨
      statusOf queue c ≠ some .buffered ∧ statusOf d.queue c ≠ some .buffered ∧
        (statusOf queue c = none ∨ statusOf queue c = some .held)) : Inv { d with queue } := by
  refine h.frame rfl (fun c => ?_) (fun c s hs => ?_) (fun j b hb => .inl hb) fun p hp => hp
  · rcases hstands c with hc | ⟨hc, hc', -⟩
    · change statusOf queue c = _ ↔ _
      rw [hc]
    · exact iff_of_false hc hc'
  · rcases hstands c with hc | ⟨-, -, hc | hc⟩
    · exact .inl (hc ▸ hs)
    · cases hc.symm.trans hs
    · exact .inr (Option.some.inj (hc.symm.trans hs)).symm

/-- Parking, dropping and sweeping claims move none in or out of the queue. -/
lemma Inv.parkCapture (h : Inv d) (claim : BufferedCapture) :
    Inv { d with queue := CaptureBuffer.parkCapture d.queue claim } := by
  refine h.withQueue fun c => ?_
  rcases statusOf_parkCapture d.queue claim c with hc | ⟨hnone, hheld⟩
  · exact .inl hc
  · exact .inr ⟨by simp [hheld], by simp [hnone], .inr hheld⟩

lemma Inv.discardHeld (h : Inv d) (captureId : FactId) :
    Inv { d with queue := CaptureBuffer.discardHeld d.queue captureId } := by
  refine h.withQueue fun c => ?_
  rw [statusOf_discardHeld]
  split_ifs with hc
  · exact .inr ⟨by simp, by simp [hc.2], .inl rfl⟩
  · exact .inl rfl

lemma Inv.sweep (h : Inv d) (cutoff : Str) :
    Inv { d with queue := sweepOrphanHeld d.queue d.questions cutoff } := by
  refine h.withQueue fun c => ?_
  rcases statusOf_sweepOrphanHeld d.queue d.questions cutoff c with hc | ⟨hheld, -, hnone⟩
  · exact .inl hc
  · exact .inr ⟨by simp [hnone], by simp [hheld], .inl hnone⟩

/-! ### Each statement -/

/-- Recording a verdict keeps the invariant, unless it is one against a claim already released. -/
lemma Inv.mark (h : Inv d) {q : SlotQuestion} {v : SlotVerdict}
    (hactor : d.actors i = some (.marking q v))
    (hagainst : v.keepsClaim = false → ∀ q' ∈ d.questions, q'.proposalId = q.proposalId →
      q'.status = .pending → ¬ Released d q.proposalId) :
    Inv (Desk.put { d with questions := markApplied d.questions q.proposalId v } i none) := by
  obtain ⟨⟨asked, hasked, hpid, hparked⟩, hkept⟩ := h.actors i _ hactor
  refine h.close (fun _ => mem_markApplied_iff) rfl (fun x => ⟨rfl, rfl, rfl, by simp⟩)
    (fun x hx hsel c hc => ?_) (fun j b hb => ?_) fun x hx hsel hpending hreleased => ?_
  · obtain ⟨hxq, hpending⟩ : x.proposalId = q.proposalId ∧ x.status = .pending := by
      simpa using hsel
    have hx' : x = asked := Table.eq_of_key_eq hx hasked (hxq.trans hpid.symm)
    cases hv : v.keepsClaim with
    | true =>
      exact iff_of_true (hkept hv c (hparked ▸ hx' ▸ hc)) ⟨rfl, v, rfl, hv⟩
    | false =>
      refine iff_of_false (fun hs => ?_) ?_
      · exact hagainst hv x hx hxq hpending (hxq ▸ h.released x hx c hc hpending hs)
      · rintro ⟨-, v', hv', hkeeps⟩
        obtain rfl := Option.some.inj hv'
        rw [hv] at hkeeps
        cases hkeeps
  · rcases actors_put hb with ⟨-, hb⟩ | ⟨-, hb⟩
    · cases hb
    · exact .inl hb
  · obtain ⟨j, q', v', hj, hp, hv'⟩ := hreleased
    have hne : j ≠ i := by
      rintro rfl
      obtain ⟨rfl, -⟩ : q' = q ∧ v' = v := by simpa using hj.symm.trans hactor
      simp [hp, hpending] at hsel
    exact ⟨j, q', v', (Function.update_of_ne hne _ _).trans hj, hp, hv'⟩

/-- Expiring questions keeps the invariant, unless one of their claims is already released. -/
lemma Inv.flip (h : Inv d) {cutoff : Str} {doomed : List FactId}
    (hactor : d.actors i = some (.flipping cutoff doomed))
    (hagainst : ∀ q ∈ d.questions, q.status = .pending → q.timeoutAt < cutoff →
      ¬ Released d q.proposalId) :
    Inv (Desk.put { d with questions := expireOverdue d.questions cutoff } i
      (some (.dropping doomed))) := by
  refine h.close (fun _ => mem_expireOverdue_iff) rfl (fun x => ⟨rfl, rfl, rfl, by simp⟩)
    (fun x hx hsel c hc => ?_) (fun j b hb => ?_) fun x hx hsel hpending hreleased => ?_
  · obtain ⟨hpending, hdue⟩ : x.status = .pending ∧ x.timeoutAt < cutoff := by simpa using hsel
    refine iff_of_false (fun hs => ?_) (fun hkeeps => ?_)
    · exact hagainst x hx hpending hdue (h.released x hx c hc hpending hs)
    · cases hkeeps.1
  · rcases actors_put hb with ⟨-, hb⟩ | ⟨-, hb⟩
    · obtain rfl := Option.some.inj hb
      refine .inr fun c hc => ?_
      obtain ⟨q, hq, hparked, hdue⟩ := h.actors i _ hactor c hc
      refine ⟨_, mem_expireOverdue_iff.mpr ⟨q, hq, rfl⟩, ?_, ?_⟩
      · split_ifs
        · exact hparked
        · exact hparked
      · split_ifs with hsel
        · simp
        · intro hpending
          exact hsel (by simp [hpending, hdue hpending])
    · exact .inl hb
  · obtain ⟨j, q', v', hj, hp, hv'⟩ := hreleased
    have hne : j ≠ i := by
      rintro rfl
      cases hj.symm.trans hactor
    exact ⟨j, q', v', (Function.update_of_ne hne _ _).trans hj, hp, hv'⟩

lemma not_marking {a : Actor} (h : d.actors i = some a) (ha : ∀ q v, a ≠ .marking q v) :
    ∀ q v, d.actors i ≠ some (.marking q v) := by
  intro q v h'
  exact ha q v (Option.some.inj (h.symm.trans h'))

lemma not_marking_of_idle (h : ¬ (d.actors i).isSome = true) :
    ∀ q v, d.actors i ≠ some (.marking q v) := by
  intro q v h'
  exact h (by rw [h']; rfl)

/-- Every statement that finds what it must find keeps the invariant. -/
theorem Inv.step {e : Event T} (h : Inv d) (hstep : step chrono d e = some d')
    (horderly : Orderly d e) : Inv d' := by
  cases e with
  | lookUp i c claim =>
    simp only [Proposals.step] at hstep
    split_ifs at hstep with hbusy hfound
    · cases hstep
      exact h
    · cases hstep
      refine h.put (not_marking_of_idle hbusy) ?_
      rintro b ⟨⟩
      trivial
  | emit i proposalId minted timeoutAt =>
    simp only [Proposals.step] at hstep
    split at hstep
    · next c claim hactor =>
      have hstay := not_marking hactor (by simp)
      split_ifs at hstep with hfresh
      split at hstep
      · cases hstep
        refine h.put hstay ?_
        rintro b ⟨⟩
      · next questions hins =>
        cases hstep
        unfold emitSlotConflict at hins
        split_ifs at hins
        have hopened : Inv { d with questions } := by
          refine h.emit hins rfl ?_ rfl (fun j b hb => .inl hb) fun p hp => hp
          intro c' hc'
          obtain ⟨-, -, rfl⟩ := Option.map_eq_some_iff.mp hc'
          exact hfresh
        refine hopened.put hstay ?_
        intro b hb
        obtain ⟨-, -, rfl⟩ := Option.map_eq_some_iff.mp hb
        trivial
    · cases hstep
  | park i capturedAt =>
    simp only [Proposals.step] at hstep
    split at hstep
    · next claim hactor =>
      cases hstep
      refine (h.parkCapture _).put (not_marking hactor (by simp)) ?_
      rintro b ⟨⟩
    · cases hstep
  | read i proposalId answer =>
    simp only [Proposals.step] at hstep
    split_ifs at hstep with hbusy
    split at hstep
    · cases hstep
      exact h
    · next q hq =>
      have hasked : ActorOk.Asked d q := ⟨q, (Table.get?_eq_some_iff.mp hq).1, rfl, rfl⟩
      split_ifs at hstep with hclosed hretire
      · cases hstep
        exact h
      · cases hstep
        refine h.put (not_marking_of_idle hbusy) ?_
        rintro b ⟨⟩
        exact hasked
      · cases hstep
        refine h.put (not_marking_of_idle hbusy) ?_
        rintro b ⟨⟩
        exact hasked
  | close i memoryNow now =>
    simp only [Proposals.step] at hstep
    split at hstep
    · next q hactor =>
      cases hstep
      refine (h.withFacts _).put (not_marking hactor (by simp)) ?_
      rintro b ⟨⟩
      exact h.actors i _ hactor
    · cases hstep
  | settle i =>
    simp only [Proposals.step] at hstep
    split at hstep
    · next q v hactor =>
      cases hstep
      have hstay := not_marking hactor (by simp)
      have hasked : ActorOk.Asked d q := h.actors i _ hactor
      unfold settleClaim
      split
      · next hnone =>
        refine h.put hstay ?_
        rintro b ⟨⟩
        exact ⟨hasked, fun _ c hc => by rw [hnone] at hc; cases hc⟩
      · next c hc =>
        split_ifs with hv
        · obtain ⟨hrow, hopen⟩ := horderly q v c hactor hv hc
          exact h.release hactor hv hc hrow hopen
        · refine (h.discardHeld c).put hstay ?_
          rintro b ⟨⟩
          exact ⟨hasked, fun hv' => absurd hv' hv⟩
    · cases hstep
  | mark i =>
    simp only [Proposals.step] at hstep
    split at hstep
    · next q v hactor =>
      cases hstep
      exact h.mark hactor (horderly q v hactor)
    · cases hstep
  | readDoomed i cutoff =>
    simp only [Proposals.step] at hstep
    split_ifs at hstep with hbusy
    cases hstep
    refine h.put (not_marking_of_idle hbusy) ?_
    rintro b ⟨⟩
    intro c hc
    obtain ⟨q, hq, hparked⟩ := List.mem_filterMap.mp hc
    obtain ⟨hq, hdue⟩ := List.mem_filter.mp hq
    exact ⟨q, hq, hparked, fun _ => (by simpa using hdue : _ ∧ _).2⟩
  | flip i =>
    simp only [Proposals.step] at hstep
    split at hstep
    · next cutoff doomed hactor =>
      cases hstep
      exact h.flip hactor (horderly cutoff doomed hactor)
    · cases hstep
  | drop i =>
    simp only [Proposals.step] at hstep
    split at hstep
    · next parked doomed hactor =>
      cases hstep
      refine (h.discardHeld parked).put (not_marking hactor (by simp)) ?_
      rintro b ⟨⟩
      exact fun c hc => h.actors i _ hactor c (List.mem_cons_of_mem _ hc)
    · next hactor =>
      cases hstep
      refine h.put (not_marking hactor (by simp)) ?_
      rintro b ⟨⟩
    · cases hstep
  | sweep cutoff =>
    cases hstep
    exact h.sweep cutoff

/-- A sweep drops every parked claim of a closed question that was written before the cutoff. -/
lemma Inv.sweptClean (h : Inv d) (e : Event T) : SweptClean chrono d e := by
  rintro cutoff rfl d' hstep q hq c hc hclosed cap hcap hheld hold
  cases hstep
  change (sweepOrphanHeld d.queue d.questions cutoff).get? c = some cap at hcap
  rw [get?_sweepOrphanHeld, Option.filter_eq_some_iff] at hcap
  have hawaited : isAwaited d.questions c = true := by
    simpa [hheld, hold] using hcap.2
  obtain ⟨q', hq', h'⟩ := List.any_eq_true.mp hawaited
  obtain ⟨hpending, hc'⟩ : q'.status = .pending ∧ q'.parkedCaptureId = some c := by simpa using h'
  rw [h.unique q hq q' hq' c hc hc'] at hclosed
  exact hclosed hpending

end Preservation

/-! ## Runs -/

/-- Nobody is at work, and no question parks a claim yet. -/
def Idle (d : Desk) : Prop :=
  (∀ i, d.actors i = none) ∧ ∀ q ∈ d.questions, q.parkedCaptureId = none

lemma inv_of_idle {d : Desk} (h : Idle d) : Inv d where
  unique q hq _ _ c hc _ := absurd (h.2 q hq ▸ hc) (by simp)
  actors i a ha := absurd (h.1 i ▸ ha) (by simp)
  parked q hq c hc _ _ := absurd (h.2 q hq ▸ hc) (by simp)
  released q hq c hc _ _ := absurd (h.2 q hq ▸ hc) (by simp)
  follows q hq c hc _ := absurd (h.2 q hq ▸ hc) (by simp)

/-- Along a run whose statements all find what they must find, the claim of a closed question is in
the queue exactly if the verdict on record keeps it, in every state; and every sweep leaves no
parked claim of a closed question that was written before its cutoff. -/
theorem follows_verdict {s t : Desk} {trace : List (Desk × Event T)} (hidle : Idle s)
    (hrun : Run (step chrono) s trace t) (horderly : ∀ p ∈ trace, Orderly p.1 p.2) :
    Run.Always FollowsVerdict trace t ∧ ∀ p ∈ trace, SweptClean chrono p.1 p.2 := by
  have hinv : Run.Always Inv trace t :=
    hrun.invariant (inv_of_idle hidle) (fun hstep h ho => h.step chrono hstep ho) horderly
  exact ⟨⟨fun p hp => (hinv.1 p hp).follows, hinv.2.follows⟩,
    fun p hp => (hinv.1 p hp).sweptClean chrono p.2⟩

/-! ## A telephone number -/

/-- Two numbers for Alice's telephone. -/
def twoNumbers : SlotConflict where
  slot := "telephone".toList
  manyValues := false
  assertedKey := some "5550199".toList
  keptFactId := FactIndex.halfPast.factId
  successor := none

/-- The id drawn for the claim that is parked. -/
def numberId : FactId := ⟨"018f1234-5678-7abc-9def-0123456789ac".toList, isFactId_ac⟩

/-- What Bob said. -/
def newNumber : BufferedCapture where
  captureId := numberId
  body := "Alice answers at 555 0199.".toList
  subject := .user "alice".toList
  sender := some (.user "bob".toList)
  capturedAt := []

/-- Nothing is asked yet. -/
def nobodyAsked : Desk where
  questions := Table.empty _
  queue := Table.empty _
  facts := Table.empty _
  actors := fun _ => none

/-- The question is opened, the claim parked, and the answer is that the new number is right. -/
def answeredAfter : List (Event ℤ) :=
  [.lookUp 0 twoNumbers (some newNumber), .emit 0 "p".toList numberId "2026-06-11".toList,
    .park 0 "2026-06-10".toList, .read 1 "p".toList (some "retire".toList),
    .close 1 1781085600500 "2026-06-10".toList, .settle 1, .mark 1, .sweep "2026-06-12".toList]

/-- The same answer, given before the claim has its row. -/
def answeredBefore : List (Event ℤ) :=
  [.lookUp 0 twoNumbers (some newNumber), .emit 0 "p".toList numberId "2026-06-11".toList,
    .read 1 "p".toList (some "retire".toList), .close 1 1781085600500 "2026-06-10".toList,
    .settle 1, .mark 1, .park 0 "2026-06-10".toList, .sweep "2026-06-12".toList]

/-- Enough for a statement to be orderly, in a run where nothing is kept and nothing expires. -/
def checkOrderly (d : Desk) : Event ℤ → Bool
  | .settle i =>
    match d.actors i with
    | some (.settling q _) => q.parkedCaptureId.all (fun c => (statusOf d.queue c).isSome) &&
        d.questions.rows.all fun q' =>
          decide (q'.proposalId = q.proposalId → q'.status = .pending)
    | _ => true
  | .mark i =>
    match d.actors i with
    | some (.marking _ v) => v.keepsClaim
    | _ => true
  | .flip _ => false
  | _ => true

lemma orderly_of_check {d : Desk} {e : Event ℤ} (h : checkOrderly d e = true) : Orderly d e := by
  cases e with
  | settle i =>
    intro q v c hactor _ hc
    simp only [checkOrderly, hactor, hc, Option.all_some, Bool.and_eq_true, List.all_eq_true,
      decide_eq_true_eq] at h
    exact h
  | mark i =>
    intro q v hactor hv
    simp only [checkOrderly, hactor, hv] at h
    cases h
  | flip i => cases h
  | _ => trivial

theorem follows_verdict_answeredAfter :
    ∃ trace t, Run (step FactIndex.sampleChrono) nobodyAsked trace t ∧
      statusOf t.queue numberId = some .buffered ∧ Run.Always FollowsVerdict trace t ∧
        ∀ p ∈ trace, SweptClean FactIndex.sampleChrono p.1 p.2 := by
  have hruns : (answeredAfter.foldlM (fun d e =>
      if checkOrderly d e then step FactIndex.sampleChrono d e else none) nobodyAsked).any
        (fun t => decide (statusOf t.queue numberId = some .buffered)) = true := by decide +kernel
  obtain ⟨trace, t, hrun, hchecked, hqueued⟩ := Run.exists_of_any_checked hruns
  have hidle : Idle nobodyAsked := ⟨fun _ => rfl, fun _ hq => absurd hq (Table.not_mem_empty _)⟩
  exact ⟨trace, t, hrun, of_decide_eq_true hqueued, follows_verdict _ hidle hrun
    fun p hp => orderly_of_check (hchecked p hp)⟩

/-- An answer that overtakes the row leaves a claim that was kept out of the queue, and the sweep
drops it. -/
theorem answeredBefore_loses_claim :
    Idle nobodyAsked ∧ ∃ trace t, Run (step FactIndex.sampleChrono) nobodyAsked trace t ∧
      statusOf t.queue numberId = none ∧ ¬ FollowsVerdict t := by
  refine ⟨⟨fun _ => rfl, fun _ hq => absurd hq (Table.not_mem_empty _)⟩, ?_⟩
  have hruns : (answeredBefore.foldlM (step FactIndex.sampleChrono) nobodyAsked).any
      (fun t => decide (statusOf t.queue numberId = none) && t.questions.rows.any fun q =>
        decide (q.parkedCaptureId = some numberId) && decide (q.status = .applied) &&
          decide (q.verdict = some .retire)) = true := by decide +kernel
  obtain ⟨trace, t, hrun, ht⟩ := Run.exists_of_any hruns
  obtain ⟨hnone, hasked⟩ := Bool.and_eq_true_iff.mp ht
  have hnone : statusOf t.queue numberId = none := of_decide_eq_true hnone
  obtain ⟨q, hq, h⟩ := List.any_eq_true.mp hasked
  obtain ⟨⟨hparked, hstatus⟩, hverdict⟩ : (q.parkedCaptureId = some numberId ∧
      q.status = .applied) ∧ q.verdict = some .retire := by simpa using h
  refine ⟨trace, t, hrun, hnone, fun hfollows => ?_⟩
  have hqueued := (hfollows q hq numberId hparked (by simp [hstatus])).mpr
    ⟨hstatus, .retire, hverdict, rfl⟩
  rw [hnone] at hqueued
  cases hqueued

end Mwe.Proposals
