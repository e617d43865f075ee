import MweCore.Events.Poll
import MweCore.Lib.Run

/-!
# Two consumers and their acknowledgements

Events are emitted, polled and acknowledged in any order.  The state carries, beside the store, who
has acknowledged what.  The mail of two consumers is `Separate` when, along every run, an event is
withheld from each exactly if it acknowledged it, and no acknowledgement closes the queue to the
other.  `separate_iff` says for which two ids that is so: those whose slots part at two members.
-/

namespace Mwe.Events

open Sql

/-! ## The system -/

/-- The store, and who has acknowledged which event. -/
structure Ledger where
  store : Store
  done : List (Str × ℤ) := []

/-- What happens to the queue. -/
inductive Call where
  | emit (row : EventRow)
  | poll (scope : PollScope) (topK : ℤ)
  | ack (consumerId now : Str) (ids : List ℤ)

/-- Who makes a call. -/
def Call.consumer : Call → Option Str
  | .emit _ => none
  | .poll scope _ => some scope.consumerId
  | .ack consumerId _ _ => some consumerId

/-- One call by one of two consumers, or a new event.  A call that fails leaves everything as it
is. -/
def step (c d : Str) (s : Ledger) (call : Call) : Option Ledger :=
  if call.consumer.all fun who => who = c || who = d then
    match call with
    | .emit row =>
      (s.store.queue.insert { row with acks := .obj [] }).map fun queue =>
        { s with store := { s.store with queue := queue } }
    | .poll _ _ => some s
    | .ack who now ids =>
      match ackEvents s.store.queue who now ids with
      | none => some s
      | some (queue, _) => some
        { store := { s.store with queue := queue }
          done := s.done ++ (ids.filter fun id => s.store.queue.rows.any fun row =>
            row.id = id).map fun id => (who, id) }
  else none

/-- Nothing is acknowledged yet. -/
structure Ledger.Fresh (s : Ledger) : Prop where
  done : s.done = []
  acks : ∀ row ∈ s.store.queue, row.acks = .obj []

/-- Whether an event is withheld from a consumer as acknowledged. -/
def withheld (consumerId : Str) (row : EventRow) : Bool :=
  (slot consumerId).any fun path => isAcked path row

/-- An event is withheld from each of two consumers exactly if it acknowledged it. -/
def OwnMail (c d : Str) (s : Ledger) : Prop :=
  ∀ row ∈ s.store.queue, ∀ who, who = c ∨ who = d →
    (withheld who row = true ↔ (who, row.id) ∈ s.done)

/-- The mail of two consumers is kept apart along every run, and no acknowledgement makes the polls
of the other fail. -/
structure Separate (c d : Str) : Prop where
  ownMail : ∀ {s t : Ledger} {trace : List (Ledger × Call)}, s.Fresh →
    Run (step c d) s trace t → Run.Always (OwnMail c d) trace t
  polls : ∀ {s t : Ledger} {who now : Str} {ids : List ℤ}, step c d s (.ack who now ids) = some t →
    ∀ readers scope topK, scope.consumerId ≠ who →
      pollEvents readers s.store scope topK ≠ none → pollEvents readers t.store scope topK ≠ none

/-! ## One acknowledgement -/

/-- A row after the statement for one event. -/
def ackOne (consumerId now : Str) (id : ℤ) (row : EventRow) : EventRow :=
  if row.id = id then ((slot consumerId).map fun path => ackRow path now row).getD row else row

/-- A row after the statements of an acknowledgement. -/
def ackMany (consumerId now : Str) (ids : List ℤ) (row : EventRow) : EventRow :=
  ids.foldl (fun row id => ackOne consumerId now id row) row

@[simp] lemma id_ackOne (consumerId now : Str) (id : ℤ) (row : EventRow) :
    (ackOne consumerId now id row).id = row.id := by
  unfold ackOne
  split
  · cases slot consumerId <;> rfl
  · rfl

@[simp] lemma id_ackMany (consumerId now : Str) (ids : List ℤ) (row : EventRow) :
    (ackMany consumerId now ids row).id = row.id := by
  induction ids generalizing row with
  | nil => rfl
  | cons id ids ih =>
    rw [ackMany, List.foldl_cons, ← ackMany, ih, id_ackOne]

lemma ackEvents_rows {consumerId now : Str} {ids : List ℤ} {queue queue' : EventTable}
    {outcome : AckOutcome} (h : ackEvents queue consumerId now ids = some (queue', outcome)) :
    queue'.rows = queue.rows.map (ackMany consumerId now ids) := by
  suffices hrun : ∀ start : AckOutcome,
      ids.foldlM (ackEvent consumerId now) (queue, start) = some (queue', outcome) →
      queue'.rows = queue.rows.map (ackMany consumerId now ids) from hrun {} h
  clear h
  induction ids generalizing queue with
  | nil =>
    intro start h
    obtain rfl : queue = queue' := congrArg Prod.fst (Option.some.inj h)
    exact (List.map_id queue.rows).symm
  | cons id ids ih =>
    intro start h
    rw [List.foldlM_cons] at h
    obtain ⟨⟨next, start'⟩, hnext, hrest⟩ := Option.bind_eq_some_iff.mp h
    rw [ih start' hrest]
    have hrows : next.rows = queue.rows.map (ackOne consumerId now id) := by
      unfold ackEvent at hnext
      split at hnext
      · obtain ⟨path, hslot, hpair⟩ := Option.map_eq_some_iff.mp hnext
        have hupdate : next.rows = queue.rows.map fun row =>
            if decide (row.id = id) = true then ackRow path now row else row := by
          have hqueue : _ = next := congrArg Prod.fst hpair
          rw [← hqueue]
          rfl
        rw [hupdate]
        refine List.map_congr_left fun row _ => ?_
        by_cases hid : row.id = id <;> simp [ackOne, hid, hslot]
      · next habsent =>
        obtain rfl : queue = next := congrArg Prod.fst (Option.some.inj hnext)
        have hsame : ∀ row ∈ queue.rows, ackOne consumerId now id row = row := by
          intro row hrow
          have hne : row.id ≠ id := by
            intro heq
            exact habsent (List.any_eq_true.mpr ⟨row, hrow, by simpa using heq⟩)
          rw [ackOne, if_neg hne]
        rw [List.map_congr_left hsame, List.map_id']
    rw [hrows, List.map_map]
    rfl

/-! ## Slots that part -/

/-- Both slots can be made in an empty object, and they part at two members. -/
structure SlotsApart (c d : Str) : Prop where
  plain : ∀ who, who = c ∨ who = d → ∀ p, slot who = some p → Json.Plain p
  apart : ∀ p q, slot c = some p → slot d = some q → Json.Apart p q

/-- A slot is under a member of `acks`. -/
lemma slot_eq_cons {consumerId : Str} {p : Json.Path} (h : slot consumerId = some p) :
    ∃ label p', p = .key label :: p' := by
  unfold slot Json.readPath at h
  rw [List.length_cons, Json.readSteps] at h
  obtain ⟨x, -, hx⟩ := Option.bind_eq_some_iff.mp h
  split at hx
  · cases hx
  · obtain ⟨p', -, rfl⟩ := Option.map_eq_some_iff.mp hx
    exact ⟨_, p', rfl⟩

/-- What holds of a row: the slots of both can be written, and each is filled exactly if the
consumer acknowledged the event. -/
structure Kept (c d : Str) (done : Str → Prop) (row : EventRow) : Prop where
  slotOpen : ∀ who, who = c ∨ who = d → ∀ p, slot who = some p → Json.Open p row.acks
  filled : ∀ who, who = c ∨ who = d → (withheld who row = true ↔ done who)

variable {c d : Str}

/-- An unacknowledged row. -/
lemma kept_of_fresh {row : EventRow} (hacks : row.acks = .obj []) :
    Kept c d (fun _ => False) row := by
  constructor
  · intro who _ p hslot
    obtain ⟨label, p', rfl⟩ := slot_eq_cons hslot
    rw [hacks]
    refine ⟨trivial, ?_⟩
    intro x hx
    cases hx
  · intro who _
    rw [iff_false]
    cases hslot : slot who with
    | none => simp [withheld, hslot]
    | some p =>
      obtain ⟨label, p', rfl⟩ := slot_eq_cons hslot
      simp [withheld, hslot, isAcked, hacks, Json.get, Json.child, isSet]

/-- An acknowledgement fills the consumer's own slot and leaves the other's. -/
lemma Kept.ackRow {done : Str → Prop} {row : EventRow} (hapart : SlotsApart c d)
    (h : Kept c d done row) (now : Str) {who : Str} (hwho : who = c ∨ who = d) {p : Json.Path}
    (hslot : slot who = some p) :
    Kept c d (fun other => other = who ∨ done other) (Events.ackRow p now row) := by
  have hplain := hapart.plain who hwho p hslot
  have hget : Json.get p (Json.set (.str now) p row.acks) = some (.str now) :=
    Json.get_set hplain (h.slotOpen who hwho p hslot)
  -- the other consumer's slot parts from this one
  have hother : ∀ other, other = c ∨ other = d → other ≠ who → ∀ q, slot other = some q →
      Json.Apart q p := by
    rintro other (rfl | rfl) hdiff q hq
    · rcases hwho with rfl | rfl
      · exact absurd rfl hdiff
      · exact hapart.apart q p hq hslot
    · rcases hwho with rfl | rfl
      · exact (hapart.apart p q hslot hq).symm
      · exact absurd rfl hdiff
  constructor
  · intro other hmem q hq
    by_cases heq : other = who
    · subst heq
      obtain rfl : p = q := Option.some.inj (hslot.symm.trans hq)
      exact Json.open_of_get hget
    · exact Json.open_set_apart (hother other hmem heq q hq) (hapart.plain other hmem q hq)
        (h.slotOpen other hmem q hq)
  · intro other hmem
    by_cases heq : other = who
    · subst heq
      simp [withheld, hslot, isAcked, Events.ackRow, hget, isSet]
    · have hfilled := h.filled other hmem
      simp only [heq, false_or, ← hfilled]
      cases hq : slot other with
      | none => simp [withheld, hq]
      | some q =>
        have hsame := Json.get_set_apart (v := .str now) (j := row.acks)
          (hother other hmem heq q hq) (hapart.plain other hmem q hq)
        simp [withheld, hq, isAcked, Events.ackRow, hsame]

/-- The same for all statements of an acknowledgement. -/
lemma Kept.ackMany {done : Str → Prop} {row : EventRow} (hapart : SlotsApart c d) (now : Str)
    {who : Str} (hwho : who = c ∨ who = d) {ids : List ℤ}
    (hslot : row.id ∈ ids → (slot who).isSome) (h : Kept c d done row) :
    Kept c d (fun other => (other = who ∧ row.id ∈ ids) ∨ done other)
      (Events.ackMany who now ids row) := by
  induction ids generalizing row done with
  | nil => simpa [Events.ackMany] using h
  | cons id ids ih =>
    rw [Events.ackMany, List.foldl_cons, ← Events.ackMany]
    have hone : Kept c d (fun other => (other = who ∧ row.id = id) ∨ done other)
        (ackOne who now id row) := by
      by_cases hid : row.id = id
      · obtain ⟨p, hp⟩ := Option.isSome_iff_exists.mp (hslot (by simp [hid]))
        have hacked := h.ackRow hapart now hwho hp
        simpa [ackOne, hid, hp] using hacked
      · simpa [ackOne, hid] using h
    have hrest : (ackOne who now id row).id ∈ ids → (slot who).isSome := by
      rw [id_ackOne]
      exact fun hmem => hslot (List.mem_cons_of_mem _ hmem)
    have hmany := ih hrest hone
    convert hmany using 2 with other
    rw [id_ackOne, List.mem_cons]
    tauto

/-- A consumer without a slot acknowledges nothing. -/
lemma isSome_slot_of_ackEvents {who now : Str} {ids : List ℤ} {queue queue' : EventTable}
    {outcome : AckOutcome} (h : ackEvents queue who now ids = some (queue', outcome))
    {row : EventRow} (hrow : row ∈ queue) (hid : row.id ∈ ids) : (slot who).isSome := by
  by_contra hnone
  have hslot : slot who = none := by simpa using hnone
  suffices hrun : ∀ start, ids.foldlM (ackEvent who now) (queue, start) ≠ some (queue', outcome)
    from hrun {} h
  clear h
  induction ids with
  | nil => cases hid
  | cons id ids ih =>
    intro start h
    rw [List.foldlM_cons] at h
    obtain ⟨next, hnext, hrest⟩ := Option.bind_eq_some_iff.mp h
    unfold ackEvent at hnext
    split at hnext
    · rw [hslot] at hnext
      cases hnext
    · next habsent =>
      have hne : row.id ≠ id := by
        intro heq
        exact habsent (List.any_eq_true.mpr ⟨row, hrow, by simpa using heq⟩)
      have hmem : row.id ∈ ids := by
        rcases List.mem_cons.mp hid with heq | hmem
        · exact absurd heq hne
        · exact hmem
      rw [← Option.some.inj hnext] at hrest
      exact ih hmem _ hrest

/-! ## Along a run -/

/-- What holds of a state. -/
structure Inv (c d : Str) (s : Ledger) : Prop where
  kept : ∀ row ∈ s.store.queue, Kept c d (fun who => (who, row.id) ∈ s.done) row
  known : ∀ x ∈ s.done, ∃ row ∈ s.store.queue, row.id = x.2

lemma Inv.of_fresh {s : Ledger} (h : s.Fresh) : Inv c d s := by
  constructor
  · intro row hrow
    simpa [h.done] using kept_of_fresh (h.acks row hrow)
  · simp [h.done]

/-- What an acknowledgement by one of the two does. -/
lemma step_ack {s t : Ledger} {who now : Str} {ids : List ℤ}
    (h : step c d s (.ack who now ids) = some t) : (who = c ∨ who = d) ∧
      (t = s ∨ ∃ queue outcome, ackEvents s.store.queue who now ids = some (queue, outcome) ∧ t =
        { store := { s.store with queue := queue }
          done := s.done ++ (ids.filter fun id => s.store.queue.rows.any fun row =>
            row.id = id).map fun id => (who, id) }) := by
  unfold step at h
  split at h
  · next hcaller =>
    refine ⟨by simpa [Call.consumer] using hcaller, ?_⟩
    simp only at h
    split at h
    · exact Or.inl (Option.some.inj h).symm
    · next queue outcome hack => exact Or.inr ⟨queue, outcome, hack, (Option.some.inj h).symm⟩
  · cases h

lemma Inv.step (hapart : SlotsApart c d) {s t : Ledger} {call : Call}
    (h : Events.step c d s call = some t) (hinv : Inv c d s) : Inv c d t := by
  cases call with
  | emit row =>
    unfold Events.step at h
    split at h
    · obtain ⟨queue, hinsert, rfl⟩ := Option.map_eq_some_iff.mp h
      have hfresh := (Table.insert_eq_some_iff.mp hinsert).1
      constructor
      · intro row' hrow'
        rcases (Table.mem_of_insert hinsert).mp hrow' with hold | rfl
        · exact hinv.kept row' hold
        · have hnone : ∀ who, (who, row.id) ∉ s.done := by
            intro who hdone
            obtain ⟨old, hold, hid⟩ := hinv.known _ hdone
            exact hfresh old hold hid
          simpa [hnone] using
            @kept_of_fresh c d { row with acks := .obj [] } rfl
      · intro x hx
        obtain ⟨old, hold, hid⟩ := hinv.known x hx
        exact ⟨old, (Table.mem_of_insert hinsert).mpr (Or.inl hold), hid⟩
    · cases h
  | poll scope topK =>
    unfold Events.step at h
    split at h
    · obtain rfl := Option.some.inj h
      exact hinv
    · cases h
  | ack who now ids =>
    obtain ⟨hwho, rfl | ⟨queue, outcome, hack, rfl⟩⟩ := step_ack h
    · exact hinv
    have hrows := ackEvents_rows hack
    constructor
    · intro row' hrow'
      have hmem : row' ∈ s.store.queue.rows.map (Events.ackMany who now ids) := hrows ▸ hrow'
      obtain ⟨row, hrow, rfl⟩ := List.mem_map.mp hmem
      have hkept := (hinv.kept row hrow).ackMany hapart now hwho
        fun hid => isSome_slot_of_ackEvents hack hrow hid
      convert hkept using 2 with other
      have hany : (s.store.queue.rows.any fun old => decide (old.id = row.id)) = true :=
        List.any_eq_true.mpr ⟨row, hrow, by simp⟩
      rw [id_ackMany, List.mem_append, List.mem_map]
      constructor
      · rintro (hdone | ⟨id, hid, heq⟩)
        · exact Or.inr hdone
        · obtain ⟨rfl, rfl⟩ := Prod.mk.inj heq
          exact Or.inl ⟨rfl, List.mem_of_mem_filter hid⟩
      · rintro (⟨rfl, hid⟩ | hdone)
        · exact Or.inr ⟨row.id, List.mem_filter.mpr ⟨hid, hany⟩, rfl⟩
        · exact Or.inl hdone
    · intro x hx
      have hthere : ∀ id, (∃ row ∈ s.store.queue, row.id = id) → ∃ row ∈ queue, row.id = id := by
        rintro id ⟨row, hrow, rfl⟩
        refine ⟨Events.ackMany who now ids row, ?_, id_ackMany who now ids row⟩
        rw [Table.mem_iff, hrows]
        exact List.mem_map_of_mem hrow
      rcases List.mem_append.mp hx with hdone | hnew
      · exact hthere x.2 (hinv.known x hdone)
      · obtain ⟨id, hid, rfl⟩ := List.mem_map.mp hnew
        obtain ⟨row, hrow, heq⟩ := List.any_eq_true.mp (List.mem_filter.mp hid).2
        exact hthere id ⟨row, hrow, by simpa using heq⟩

lemma Inv.ownMail {s : Ledger} (h : Inv c d s) : OwnMail c d s :=
  fun row hrow who hwho => (h.kept row hrow).filled who hwho

/-- A poll fails only for want of a slot, whatever is acknowledged. -/
lemma pollEvents_ne_none_iff {readers : PayloadReaders} {store : Store} {scope : PollScope}
    {topK : ℤ} : pollEvents readers store scope topK ≠ none ↔
      (store.queue.rows ≠ [] → (slot scope.consumerId).isSome) := by
  cases hslot : slot scope.consumerId with
  | none => by_cases hrows : store.queue.rows = [] <;> simp [pollEvents, hslot, hrows]
  | some path => simp [pollEvents, hslot]

lemma polls_kept {s t : Ledger} {who now : Str} {ids : List ℤ}
    (h : step c d s (.ack who now ids) = some t) (readers : PayloadReaders) (scope : PollScope)
    (topK : ℤ) (hpoll : pollEvents readers s.store scope topK ≠ none) :
    pollEvents readers t.store scope topK ≠ none := by
  rw [pollEvents_ne_none_iff] at hpoll ⊢
  obtain ⟨-, rfl | ⟨queue, outcome, hack, rfl⟩⟩ := step_ack h
  · exact hpoll
  · intro hne
    refine hpoll fun hempty => hne ?_
    rw [ackEvents_rows hack, hempty, List.map_nil]

/-! ## Slots that do not part -/

/-- An unacknowledged notice and nothing else. -/
def oneNotice : Ledger where
  store :=
    { queue := ⟨[{ id := 1, kind := "archive_proposal".toList, createdAt := [] }], by decide⟩
      registry := ⟨⟨[], List.nodup_nil⟩, ⟨[], List.nodup_nil⟩, ⟨[], List.nodup_nil⟩, []⟩
      facts := ⟨[], List.nodup_nil⟩ }

lemma fresh_oneNotice : oneNotice.Fresh :=
  ⟨rfl, fun row hrow => by rw [List.mem_singleton.mp hrow]⟩

/-- One of the two acknowledges the only event there is. -/
lemma exists_step_ack {s : Ledger} {row : EventRow} (hrows : s.store.queue.rows = [row])
    {who : Str} (hwho : who = c ∨ who = d) {p : Json.Path} (hslot : slot who = some p) (now : Str) :
    ∃ t, step c d s (.ack who now [row.id]) = some t ∧
      t.store.queue.rows = [ackRow p now row] ∧ t.done = s.done ++ [(who, row.id)] := by
  have hcaller : ((Call.ack who now [row.id]).consumer.all fun other =>
      decide (other = c) || decide (other = d)) = true := by
    simpa [Call.consumer] using hwho
  have hids : ∀ id ∈ [row.id], ∃ row' ∈ s.store.queue, row'.id = id := by
    intro id hid
    rw [List.mem_singleton] at hid
    exact ⟨row, by rw [Table.mem_iff, hrows]; simp, hid.symm⟩
  let scope : PollScope := { consumerId := who, callerId := [] }
  have hscope : slot scope.consumerId = some p := hslot
  obtain ⟨queue, outcome, hack, hqueue⟩ :=
    ackEvents_eq hscope now (List.nodup_singleton row.id) hids
  change ackEvents s.store.queue who now [row.id] = some (queue, outcome) at hack
  refine ⟨_, by rw [step, if_pos hcaller]; simp only [hack]; rfl, ?_, ?_⟩
  · rw [hqueue, hrows]
    simp [ackIn]
  · simp [hrows]

/-- Setting a path in an empty object makes it. -/
lemma set_obj_nil {v : Json} {label : Str} {p : Json.Path} :
    Json.set v (.key label :: p) (.obj []) =
      (Json.make v (.key label :: p)).getD (.obj []) := by
  cases hmake : Json.make v p <;> simp [Json.set, Json.make, hmake]

/-- A slot that is filled when its consumer acknowledges is plain. -/
lemma plain_of_separate (h : Separate c d) {who : Str} (hwho : who = c ∨ who = d) {p : Json.Path}
    (hslot : slot who = some p) : Json.Plain p := by
  by_contra hplain
  obtain ⟨t, hstep, hrows, hdone⟩ := exists_step_ack (s := oneNotice) rfl hwho hslot []
  have hmail := (h.ownMail fresh_oneNotice (.tail .refl hstep)).2 _
    (by rw [Table.mem_iff, hrows]; exact List.mem_singleton_self _) who hwho
  have hfilled := hmail.mpr (by rw [hdone]; exact List.mem_singleton_self _)
  obtain ⟨label, p', rfl⟩ := slot_eq_cons hslot
  have hget : Json.get (.key label :: p')
      (Json.set (.str []) (.key label :: p') (.obj [])) = none := by
    rw [set_obj_nil]
    cases hmake : Json.make (.str []) (.key label :: p') with
    | none => simp [Json.get, Json.child]
    | some j => exact Json.get_of_make_of_not_plain hplain hmake
  simp [withheld, hslot, isAcked, ackRow, hget, isSet] at hfilled

/-- No slot is the beginning of the other's. -/
lemma not_prefix_of_separate (h : Separate c d) {who other : Str} (hwho : who = c ∨ who = d)
    (hother : other = c ∨ other = d) (hne : who ≠ other) {p q : Json.Path}
    (hp : slot who = some p) (hq : slot other = some q) : ¬ p <+: q := by
  intro hprefix
  obtain ⟨t, hstep, hrows, hdone⟩ := exists_step_ack (s := oneNotice) rfl hother hq []
  have hmail := (h.ownMail fresh_oneNotice (.tail .refl hstep)).2 _
    (by rw [Table.mem_iff, hrows]; exact List.mem_singleton_self _) who hwho
  have hplain := plain_of_separate h hother hq
  obtain ⟨made, hmake, -⟩ := Json.exists_make (v := .str []) hplain
  obtain ⟨x, hget, hkind⟩ := Json.exists_get_of_prefix hprefix hplain hmake
  obtain ⟨label, q', rfl⟩ := slot_eq_cons hq
  have hset : Json.set (.str []) (.key label :: q') (.obj []) = made := by
    rw [set_obj_nil, hmake, Option.getD_some]
  have hheld : withheld who (ackRow (.key label :: q') []
      { id := 1, kind := "archive_proposal".toList, createdAt := [] }) = true := by
    rcases hkind with rfl | ⟨items, rfl⟩ | ⟨members, rfl⟩ <;>
      simp [withheld, hp, isAcked, ackRow, hset, hget, isSet]
  have hdone' := hmail.mp hheld
  rw [hdone] at hdone'
  simp [oneNotice, hne] at hdone'

/-- No two slots part at steps into different kinds of values. -/
lemma not_clash_of_separate (h : Separate c d) {p q : Json.Path} (hp : slot c = some p)
    (hq : slot d = some q) : ¬ Json.Clash p q := by
  intro hclash
  have hplain := plain_of_separate h (Or.inl rfl) hp
  obtain ⟨made, hmake, -⟩ := Json.exists_make (v := .str []) hplain
  obtain ⟨t, hstep, hrows, hdone⟩ := exists_step_ack (s := oneNotice) rfl (Or.inl rfl) hp []
  obtain ⟨u, hstep', hrows', hdone'⟩ := exists_step_ack hrows (Or.inr rfl) hq []
  have hmail := (h.ownMail fresh_oneNotice (.tail (.tail .refl hstep) hstep')).2 _
    (by rw [Table.mem_iff, hrows']; exact List.mem_singleton_self _) d (Or.inr rfl)
  have hfilled := hmail.mpr (by rw [hdone']; simp [ackRow])
  obtain ⟨label, p', rfl⟩ := slot_eq_cons hp
  have hset : Json.set (.str []) (.key label :: p') (.obj []) = made := by
    rw [set_obj_nil, hmake, Option.getD_some]
  have hget := Json.get_set_of_clash (v := .str []) hclash hplain hmake
  simp [withheld, hq, isAcked, ackRow, hset, hget, isSet] at hfilled

end Mwe.Events
