import MweCore.Lib.Run
import MweCore.Reminders.Readers

/-!
# Sweep after sweep

The sweeps of a run see the same facts, at instants that do not go back.  Along every run no person
is told of a commitment twice within the window in which a notice counts.  A commitment is told to
all its people while it is due, however many are due with it, only where the cap is not reached and
the candidates are all found: a sweep does not pass over what it announced before.
`rings_once_and_unstarved_iff` puts the two together.
-/

namespace Mwe

open Str Sql

namespace Reminders

/-! ## Runs of sweeps -/

/-- The queue, what was sent, and the instants the last sweep saw. -/
structure Rounds where
  round : Round
  now : ℤ
  clock : ℤ

/-- One sweep, at an instant it is given and by a clock it reads. -/
structure Tick where
  now : ℤ
  clock : ℤ

variable (out : Outside) (m : Memory) (policy : ReminderPolicy)

/-- A sweep, no earlier than the one before. -/
def step (s : Rounds) (tick : Tick) : Option Rounds :=
  if s.now ≤ tick.now ∧ s.clock ≤ tick.clock then
    some
      { round := Effect.final (sweep out m policy tick.now tick.clock s.round)
        now := tick.now
        clock := tick.clock }
  else none

/-- Two notices tell one person of one commitment. -/
def Same (a b : Notice) : Prop :=
  a.reminder.factId = b.reminder.factId ∧ a.recipient = b.recipient

/-- Nobody is told of a commitment twice within the window in which a notice counts. -/
def RingsOnce : Prop :=
  ∀ {s t : Rounds} {trace : List (Rounds × Tick)}, s.round.sent = [] →
    Run (step out m policy) s trace t →
      t.round.sent.Pairwise fun a b => Same a b → alreadyRung < b.sentAt - a.sentAt

/-- A notice of a commitment to a recipient is in the queue. -/
def Emitted (queue : EventTable) (factId recipient : Str) : Prop :=
  ∃ row ∈ queue, row.kind = reminderDue ∧ row.factId = some factId ∧
    Events.recipientOf out.readers row.payload = .text recipient

/-- Commitments that are due at every sweep of a run have been told to all their people, when there
are no more of them than the sweeps may announce. -/
def Unstarved : Prop :=
  ∀ (dues : List FactRow), dues.Nodup → (∀ row ∈ dues, row ∈ m.facts ∧ row.isActive = true) →
    ∀ {s t : Rounds} {trace : List (Rounds × Tick)}, Run (step out m policy) s trace t →
      dues.length ≤ policy.cap * trace.length →
      (∀ x ∈ trace, ∀ row ∈ dues, Due out m policy x.2.now row) →
        ∀ row ∈ dues, ∀ userId, Concerns m row userId →
          Emitted out t.round.queue row.factId.val (Principal.user userId).display

open scoped Classical in
/-- The commitments due at an instant, told or not. -/
noncomputable def dueAt (now : ℤ) : List FactRow :=
  m.facts.rows.filter fun row => row.isActive && decide (Due out m policy now row)

/-- Whatever is due at an instant is found, and not more of it than a sweep may announce. -/
def Roomy : Prop :=
  ∀ now, dueAt out m policy now ≠ [] → policy.enabled = true ∧
    (∀ row ∈ dueAt out m policy now, row ∈ candidates out m now) ∧
    (dueAt out m policy now).length ≤ policy.cap

variable {out m policy}

/-! ## Told once -/

/-- Every notice that was sent is in the queue, and notices of one commitment to one person are far
apart. -/
structure Booked (out : Outside) (clock : ℤ) (s : Round) : Prop where
  written : ∀ n ∈ s.sent, ∃ row ∈ s.queue, row = eventOf out n row.id
  reads : ∀ n ∈ s.sent,
    Events.recipientOf out.readers (some (out.write (payload out.chrono n.reminder n.recipient))) =
      .text n.recipient
  past : ∀ n ∈ s.sent, n.sentAt ≤ clock
  spaced : s.sent.Pairwise fun a b => Same a b → alreadyRung < b.sentAt - a.sentAt

lemma Booked.later {clock clock' : ℤ} {s : Round} (h : Booked out clock s) (hle : clock ≤ clock') :
    Booked out clock' s :=
  { h with past := fun n hn => (h.past n hn).trans hle }

/-- An announcement keeps the books. -/
lemma Booked.ring (hmono : ∀ a b, a ≤ b → out.toRfc3339 a ≤ out.toRfc3339 b) {clock : ℤ}
    {s t : Round} {r : DueReminder} {recipient : Str} (h : Booked out clock s)
    (hread : Events.recipientOf out.readers (some (out.write (payload out.chrono r recipient))) =
      .text recipient)
    (hring : Reminders.ring out clock r recipient s = .ok () t) : Booked out clock t := by
  rcases ring_cases hring with ⟨-, hqueue, hsent⟩ | ⟨hrung, hrows, hsent⟩
  · exact ⟨by rw [hqueue, hsent]; exact h.written, by rw [hsent]; exact h.reads,
      by rw [hsent]; exact h.past, by rw [hsent]; exact h.spaced⟩
  · have hsent' : ∀ n, n ∈ t.sent ↔ n ∈ s.sent ∨ n = ⟨r, recipient, clock⟩ := by
      intro n
      rw [hsent]
      simp
    have hqueue : ∀ row, row ∈ t.queue ↔ row ∈ s.queue ∨
        row = eventOf out ⟨r, recipient, clock⟩ (nextId s.queue) := by
      intro row
      rw [Table.mem_iff, hrows]
      simp [Table.mem_iff]
    constructor
    · intro n hn
      rcases (hsent' n).mp hn with hn | rfl
      · obtain ⟨row, hrow, heq⟩ := h.written n hn
        exact ⟨row, (hqueue row).mpr (Or.inl hrow), heq⟩
      · exact ⟨_, (hqueue _).mpr (Or.inr rfl), rfl⟩
    · intro n hn
      rcases (hsent' n).mp hn with hn | rfl
      · exact h.reads n hn
      · exact hread
    · intro n hn
      rcases (hsent' n).mp hn with hn | rfl
      · exact h.past n hn
      · exact le_refl clock
    · rw [hsent, List.pairwise_append]
      refine ⟨h.spaced, by simp, ?_⟩
      intro a ha b hb hsame
      obtain rfl := List.mem_singleton.mp hb
      by_contra hnear
      -- the row of the earlier notice would have stopped this one
      obtain ⟨row, hrow, heq⟩ := h.written a ha
      have hrecent : out.toRfc3339 (clock - alreadyRung) ≤ row.createdAt := by
        rw [heq]
        refine hmono _ _ ?_
        simp only at hnear
        omega
      refine hrung (rung_iff.mpr ⟨row, hrow, ?_, ?_, hrecent, ?_⟩)
      · rw [heq]
        rfl
      · rw [heq, ← hsame.1]
        rfl
      · rw [heq]
        exact (h.reads a ha).trans (by rw [hsame.2])

/-- What a sweep of a run does. -/
lemma step_spec (hread : ReadsBack out m policy) {s t : Rounds} {tick : Tick}
    (h : step out m policy s tick = some t) :
    s.clock ≤ tick.clock ∧ t.clock = tick.clock ∧
      Rang out tick.clock s.round (pairs (dueNow out m policy tick.now)) t.round := by
  unfold step at h
  split_ifs at h with hle
  obtain ⟨round, hsweep, hrang⟩ := @sweep_spec out m policy tick.now tick.clock hread s.round
  obtain rfl := Option.some.inj h
  refine ⟨hle.2, rfl, ?_⟩
  simpa only [hsweep, Effect.final_ok] using hrang

lemma Booked.step (hread : ReadsBack out m policy)
    (hmono : ∀ a b, a ≤ b → out.toRfc3339 a ≤ out.toRfc3339 b) {s t : Rounds} {tick : Tick}
    (h : Booked out s.clock s.round) (hstep : Reminders.step out m policy s tick = some t) :
    Booked out t.clock t.round := by
  unfold Reminders.step at hstep
  split_ifs at hstep with hle
  obtain ⟨round, hsweep, hbooked⟩ := @sweep_ok out m policy tick.now tick.clock
    (fun _ r => Booked out tick.clock r) s.round
    (fun _ x hx u v hu hring => hu.ring hmono (reads_of_mem_pairs hread hx) hring)
    ⟨(h.later hle.2).written, h.reads, (h.later hle.2).past, h.spaced⟩
  obtain rfl := Option.some.inj hstep
  simpa only [hsweep, Effect.final_ok] using hbooked

lemma ringsOnce (hread : ReadsBack out m policy)
    (hmono : ∀ a b, a ≤ b → out.toRfc3339 a ≤ out.toRfc3339 b) : RingsOnce out m policy := by
  intro s t trace hsent hrun
  have hfresh : Booked out s.clock s.round := by
    constructor <;> simp [hsent]
  have hbooked := hrun.invariant (C := fun _ _ => True) (P := fun x => Booked out x.clock x.round)
    hfresh (fun hstep h _ => h.step hread hmono hstep) (fun _ _ => trivial)
  exact hbooked.2.spaced

/-! ## Told at all -/

lemma mem_dueAt_iff {now : ℤ} {row : FactRow} : row ∈ dueAt out m policy now ↔
    row ∈ m.facts ∧ row.isActive = true ∧ Due out m policy now row := by
  simp [dueAt, Table.mem_iff]

/-- Where there is room, whatever is due is announced. -/
lemma Roomy.announced (h : Roomy out m policy) {now : ℤ} {row : FactRow}
    (hrow : row ∈ dueAt out m policy now) : Announced out m policy now row := by
  classical
  obtain ⟨henabled, hfound, hlen⟩ := h now (List.ne_nil_of_mem hrow)
  obtain ⟨before, after, hsplit⟩ := List.mem_iff_append.mp (hfound row hrow)
  have hdue := (mem_dueAt_iff.mp hrow).2.2
  refine ⟨henabled, hdue, before, after, hsplit, ?_⟩
  have hcount : (candidates out m now).countP (fun x => decide (Due out m policy now x)) ≤
      (dueAt out m policy now).length := by
    rw [candidates, findDueBetween, (List.perm_insertionSort _ _).countP_eq, List.countP_filter,
      dueAt, ← List.countP_eq_length_filter]
    refine List.countP_mono_left ?_
    intro x _ hx
    simp only [Bool.and_eq_true] at hx ⊢
    exact ⟨hx.2.1, by convert hx.1⟩
  rw [hsplit, List.countP_append, List.countP_cons_of_pos (by simpa using hdue)] at hcount
  omega

/-- A commitment that is announced has been told to all its people when the sweep is over. -/
lemma emitted_of_announced (hread : ReadsBack out m policy) {s t : Rounds} {tick : Tick}
    (hstep : step out m policy s tick = some t) {row : FactRow}
    (hrow : Announced out m policy tick.now row) {userId : Str}
    (hconcerns : Concerns m row userId) :
    Emitted out t.round.queue row.factId.val (Principal.user userId).display := by
  obtain ⟨-, -, hrang⟩ := step_spec hread hstep
  obtain ⟨r, hfact, hpair⟩ := exists_mem_pairs hrow hconcerns
  rw [← hfact]
  rcases hrang.all _ hpair with hrung | ⟨n, -, hfact', hrecipient, hdone, event, hevent, heq⟩
  · obtain ⟨event, hevent, hkind, hof, -, hto⟩ := rung_iff.mp hrung
    exact ⟨event, hrang.kept event hevent, hkind, hof, hto⟩
  · refine ⟨event, hevent, ?_, ?_, ?_⟩
    · rw [heq]
      rfl
    · rw [heq, ← hfact']
      rfl
    · have hto : (Principal.user userId).display = n.recipient := hrecipient.symm
      rw [heq, hto]
      exact reads_of_mem_pairs hread hdone

/-- The queue holds nothing but notices of what is announced at one instant. -/
def OnlyOf (out : Outside) (m : Memory) (policy : ReminderPolicy) (now : ℤ) (queue : EventTable) :
    Prop :=
  ∀ row ∈ queue, ∃ r ∈ dueNow out m policy now, row.factId = some r.factId

/-- As many sweeps at one instant as one likes. -/
lemma exists_run (hread : ReadsBack out m policy) (now : ℤ) (n : ℕ) :
    ∃ t trace, Run (step out m policy) ⟨{ queue := .empty EventRow.id }, now, 0⟩ trace t ∧
      trace.length = n ∧ (∀ x ∈ trace, x.2 = ⟨now, 0⟩) ∧ t.now = now ∧ t.clock = 0 ∧
      OnlyOf out m policy now t.round.queue := by
  induction n with
  | zero => exact ⟨_, [], .refl, rfl, by simp, rfl, rfl, fun row h => absurd h (by simp)⟩
  | succ n ih =>
    obtain ⟨t, trace, hrun, hlen, hticks, hnow, hclock, honly⟩ := ih
    have hstep : step out m policy t ⟨now, 0⟩ =
        some ⟨Effect.final (sweep out m policy now 0 t.round), now, 0⟩ := by
      rw [step, if_pos (by simp [hnow, hclock])]
    refine ⟨_, trace ++ [(t, ⟨now, 0⟩)], hrun.tail hstep, by simp [hlen], ?_, rfl, rfl, ?_⟩
    · intro x hx
      rcases List.mem_append.mp hx with hx | hx
      · exact hticks x hx
      · rw [List.mem_singleton.mp hx]
    · intro row hrow
      obtain ⟨-, -, hrang⟩ := step_spec hread hstep
      rcases hrang.written row hrow with hold | ⟨n, -, hdone, heq⟩
      · exact honly row hold
      · exact ⟨n.reminder, (mem_pairs_iff.mp hdone).1, by rw [heq]; rfl⟩

/-- Nobody is told twice, and a commitment that is due is told to all its people as long as no
more are due than one sweep announces and the candidates include all of them. -/
theorem rings_once_and_unstarved_iff (hread : ReadsBack out m policy)
    (hmono : ∀ a b, a ≤ b → out.toRfc3339 a ≤ out.toRfc3339 b) (hcap : 1 ≤ policy.cap) :
    RingsOnce out m policy ∧ (Unstarved out m policy ↔ Roomy out m policy) := by
  refine ⟨ringsOnce hread hmono, ?_, ?_⟩
  · intro h now hne
    obtain ⟨t, trace, hrun, hlen, hticks, -, -, honly⟩ :=
      exists_run hread now (dueAt out m policy now).length
    have hnodup : (dueAt out m policy now).Nodup :=
      (m.facts.nodup.of_map _).filter _
    have hannounced : ∀ row ∈ dueAt out m policy now, Announced out m policy now row := by
      intro row hrow
      obtain ⟨hmem, -, hdue⟩ := mem_dueAt_iff.mp hrow
      obtain ⟨userId, hconcerns⟩ := hdue.concerns
      obtain ⟨event, hevent, -, hof, -⟩ := h (dueAt out m policy now) hnodup
        (fun x hx => ⟨(mem_dueAt_iff.mp hx).1, (mem_dueAt_iff.mp hx).2.1⟩) hrun
        (by rw [hlen]; exact Nat.le_mul_of_pos_left _ hcap)
        (fun x hx y hy => by rw [hticks x hx]; exact (mem_dueAt_iff.mp hy).2.2)
        row hrow userId hconcerns
      obtain ⟨r, hr, hof'⟩ := honly event hevent
      obtain ⟨row', hrow', hr'⟩ := mem_dueNow_iff.mp hr
      have hid : row'.factId = row.factId := by
        rw [hof, (dueReminder_eq_some_iff.mp hr').2.1] at hof'
        exact (FactId.val_injective (Option.some.inj hof')).symm
      rwa [← Table.eq_of_key_eq hrow'.mem hmem hid]
    obtain ⟨row, hrow⟩ := List.exists_mem_of_ne_nil _ hne
    refine ⟨(hannounced row hrow).1, ?_, ?_⟩
    · intro row hrow
      obtain ⟨-, -, before, after, hsplit, -⟩ := hannounced row hrow
      rw [hsplit]
      simp
    · have hsubset : (dueAt out m policy now).map (fun row => row.factId.val) ⊆
          (dueNow out m policy now).map DueReminder.factId := by
        intro id hid
        obtain ⟨row, hrow, rfl⟩ := List.mem_map.mp hid
        obtain ⟨r, hr⟩ := Option.isSome_iff_exists.mp
          (isSome_dueReminder_iff.mpr (hannounced row hrow).2.1)
        rw [← (dueReminder_eq_some_iff.mp hr).2.1]
        exact List.mem_map_of_mem (mem_dueNow_iff.mpr ⟨row, hannounced row hrow, hr⟩)
      have hids : ((dueAt out m policy now).map fun row => row.factId.val).Nodup := by
        refine hnodup.map_on ?_
        intro x hx y hy heq
        exact Table.eq_of_key_eq (mem_dueAt_iff.mp hx).1 (mem_dueAt_iff.mp hy).1
          (FactId.val_injective heq)
      have hlength := (List.subperm_of_subset hids hsubset).length_le
      rw [List.length_map, List.length_map] at hlength
      refine hlength.trans ?_
      unfold dueNow
      split_ifs
      · exact List.length_take_le _ _
      · exact Nat.zero_le _
  · intro h dues _ hdues s t trace hrun hlen hticks row hrow userId hconcerns
    cases hrun with
    | refl =>
      have hempty : dues = [] := List.eq_nil_of_length_eq_zero (by simpa using hlen)
      rw [hempty] at hrow
      cases hrow
    | @tail trace u t tick hrun hstep =>
      have hdue : Due out m policy tick.now row := hticks (u, tick) (by simp) row hrow
      have hmem : row ∈ dueAt out m policy tick.now :=
        mem_dueAt_iff.mpr ⟨(hdues row hrow).1, (hdues row hrow).2, hdue⟩
      exact emitted_of_announced hread hstep (h.announced hmem) hconcerns

/-! ### Two plans and a cap of one -/

/-- A second plan for the hour of the party. -/
def cakeFact : FactRow :=
  { partyFact with
    factId := ⟨"018f1234-5678-7abc-9def-000000000002".toList, by decide⟩
    text := "Cake.".toList }

/-- Both plans. -/
def cakeMemory : Memory :=
  { partyMemory with
    facts := ⟨[partyFact, cakeFact], by decide⟩
    decoded := by decide }

/-- The libraries, at the inputs of the example. -/
def cakeOutside : Outside := partyOutside [partyFact, cakeFact]

/-- One commitment a sweep. -/
def cakePolicy : ReminderPolicy := { cap := 1 }

lemma readsBack_cake : ReadsBack cakeOutside cakeMemory cakePolicy := by
  refine readsBack_partyOutside ?_
  intro row hrow
  have hone : row = partyFact ∨ row = cakeFact := by
    simpa [cakeMemory, Table.mem_iff] using hrow
  rcases hone with rfl | rfl <;> decide +kernel

lemma toRfc3339_cakeOutside_mono :
    ∀ a b, a ≤ b → cakeOutside.toRfc3339 a ≤ cakeOutside.toRfc3339 b := by
  intro a b hab
  simp only [cakeOutside, partyOutside]
  split_ifs
  · exact le_refl _
  · decide
  · omega
  · exact le_refl _

/-- Two plans under a cap of one. -/
theorem cake_rings_once_and_unstarved_iff : RingsOnce cakeOutside cakeMemory cakePolicy ∧
    (Unstarved cakeOutside cakeMemory cakePolicy ↔ Roomy cakeOutside cakeMemory cakePolicy) :=
  rings_once_and_unstarved_iff readsBack_cake toRfc3339_cakeOutside_mono (by decide)

/-- Before the first sweep. -/
def cakeStart : Rounds := ⟨{ queue := noEvents }, partyTime, partyTime⟩

/-- After one more sweep at the hour of the party. -/
def cakeNext (s : Rounds) : Rounds :=
  ⟨Effect.final (sweep cakeOutside cakeMemory cakePolicy partyTime partyTime s.round), partyTime,
    partyTime⟩

/-- Of two plans the second is told to nobody in two sweeps. -/
theorem cake_never_rings : ¬ ∀ (out : Outside) (m : Memory) (policy : ReminderPolicy),
    ReadsBack out m policy → (∀ a b, a ≤ b → out.toRfc3339 a ≤ out.toRfc3339 b) →
      1 ≤ policy.cap → RingsOnce out m policy ∧ Unstarved out m policy := by
  intro h
  obtain ⟨-, hunstarved⟩ :=
    h cakeOutside cakeMemory cakePolicy readsBack_cake toRfc3339_cakeOutside_mono (by decide)
  have hrun : Run (step cakeOutside cakeMemory cakePolicy) cakeStart
      [(cakeStart, ⟨partyTime, partyTime⟩), (cakeNext cakeStart, ⟨partyTime, partyTime⟩)]
      (cakeNext (cakeNext cakeStart)) :=
    .tail (.tail .refl (if_pos (by decide))) (if_pos (by decide))
  have hdue : ∀ row ∈ [partyFact, cakeFact],
      Due cakeOutside cakeMemory cakePolicy partyTime row := by
    intro row hrow
    rw [← isSome_dueReminder_iff]
    revert row
    decide +kernel
  have hactive : ∀ row ∈ [partyFact, cakeFact], row.isActive = true := by decide
  have hanna : Concerns cakeMemory cakeFact "anna".toList :=
    ⟨by decide, .group "parents".toList, by decide, Or.inr ⟨"parents".toList, rfl, by decide⟩⟩
  obtain ⟨event, hevent, -, hof, -⟩ := hunstarved [partyFact, cakeFact]
    (cakeMemory.facts.nodup.of_map _) (fun row hrow => ⟨hrow, hactive row hrow⟩) hrun (by decide)
    (by
      intro x hx
      have htick : x.2 = ⟨partyTime, partyTime⟩ := by
        rcases List.mem_pair.mp hx with rfl | rfl <;> rfl
      rw [htick]
      exact hdue)
    cakeFact (by simp) "anna".toList hanna
  have hothers : ∀ event ∈ (cakeNext (cakeNext cakeStart)).round.queue.rows,
      event.factId ≠ some cakeFact.factId.val := by decide +kernel
  exact hothers event hevent hof

end Reminders

end Mwe
