import MweCore.Events.Queue

/-!
# What a drain of the queue delivers

The rows a consumer is to receive are a list: the pending rows in order, less those held back
(`admitted`).  A poll returns a prefix of it (`exists_pollEvents`), and polls that are acknowledged
one after the other go through it once (`drains_exactly`), as long as an acknowledgement finds its
slot in the row.
-/

namespace Mwe.Events

open Sql

/-! ## The rows in order -/

/-- Rows in the order of delivery. -/
def sortRows (rows : List EventRow) : List EventRow :=
  rows.insertionSort fun a b => stamp a ≤ stamp b

@[simp] lemma mem_sortRows {rows : List EventRow} {row : EventRow} :
    row ∈ sortRows rows ↔ row ∈ rows := by
  simp [sortRows]

lemma id_eq_of_stamp_eq {a b : EventRow} (h : stamp a = stamp b) : a.id = b.id :=
  congrArg (fun s : Str ×ₗ ℤ => (ofLex s).2) h

lemma pairwise_sortRows (rows : List EventRow) :
    (sortRows rows).Pairwise fun a b => stamp a ≤ stamp b :=
  List.pairwise_insertionSort _ rows

lemma nodup_sortRows {rows : List EventRow} (hnodup : (rows.map EventRow.id).Nodup) :
    ((sortRows rows).map EventRow.id).Nodup :=
  ((List.perm_insertionSort _ rows).map EventRow.id).nodup_iff.mpr hnodup

/-- Rows with different ids have different places. -/
lemma sortRows_strict {rows : List EventRow} (hnodup : (rows.map EventRow.id).Nodup) :
    ((sortRows rows).map stamp).Pairwise (· < ·) := by
  have hids : (sortRows rows).Pairwise fun a b => a.id ≠ b.id :=
    List.pairwise_map.mp (nodup_sortRows hnodup)
  rw [List.pairwise_map]
  refine ((pairwise_sortRows rows).and hids).imp ?_
  rintro a b ⟨hle, hne⟩
  exact lt_of_le_of_ne hle fun heq => hne (id_eq_of_stamp_eq heq)

/-- Picking rows and putting them in order can be done either way round. -/
lemma sortRows_filter {rows : List EventRow} (hnodup : (rows.map EventRow.id).Nodup)
    (p : EventRow → Bool) : sortRows (rows.filter p) = (sortRows rows).filter p := by
  refine List.Perm.eq_of_pairwise ?_ (pairwise_sortRows _) ((pairwise_sortRows rows).filter p) ?_
  · intro a b ha hb hab hba
    have ha' : a ∈ rows := List.mem_of_mem_filter (mem_sortRows.mp ha)
    have hb' : b ∈ rows := mem_sortRows.mp (List.mem_of_mem_filter hb)
    exact List.inj_on_of_nodup_map hnodup ha' hb' (id_eq_of_stamp_eq (le_antisymm hab hba))
  · exact (List.perm_insertionSort _ _).trans ((List.perm_insertionSort _ rows).symm.filter p)

/-- A change that leaves the places leaves the order. -/
lemma sortRows_map {f : EventRow → EventRow} (hf : ∀ row, stamp (f row) = stamp row)
    (rows : List EventRow) : sortRows (rows.map f) = (sortRows rows).map f := by
  refine (List.map_insertionSort _ _ f rows ?_).symm
  intro a _ b _
  rw [hf, hf]

/-! ## What is to be delivered -/

variable (readers : PayloadReaders) (store : Store) (scope : PollScope) (path : Json.Path)

/-- The rows a consumer has not acknowledged and may receive. -/
def pendingRows : List EventRow :=
  sortRows (store.queue.rows.filter (pending readers store scope path))

/-- The events a consumer is to receive. -/
def admitted : List PolledEvent :=
  (pendingRows readers store scope path).filterMap (deliver readers store)

variable {readers store scope path}

lemma nodup_pendingRows : ((pendingRows readers store scope path).map EventRow.id).Nodup :=
  nodup_sortRows (store.queue.nodup.sublist (List.filter_sublist.map EventRow.id))

lemma batchAfter_eq (after : Option (Str ×ₗ ℤ)) (batch : ℕ) :
    batchAfter readers store scope path after batch =
      ((pendingRows readers store scope path).filter fun row =>
        decide (∀ cursor ∈ after, cursor < stamp row)).take batch := by
  have hcursor : ∀ row : EventRow, decide (∀ cursor ∈ after,
      (ofLex cursor).1 < row.createdAt ∨ (ofLex cursor).1 = row.createdAt ∧
        (ofLex cursor).2 < row.id) = decide (∀ cursor ∈ after, cursor < stamp row) := by
    intro row
    rw [decide_eq_decide]
    refine forall₂_congr fun cursor _ => ?_
    exact (Prod.Lex.lt_iff (x := cursor) (y := stamp row)).symm
  have hnodup : ((store.queue.rows.filter (pending readers store scope path)).map
      EventRow.id).Nodup :=
    store.queue.nodup.sublist (List.filter_sublist.map EventRow.id)
  have hsort := sortRows_filter hnodup fun row => decide (∀ cursor ∈ after, cursor < stamp row)
  simp only [batchAfter, hcursor]
  rw [pendingRows, ← hsort, sortRows, List.filter_filter]
  simp only [Bool.and_comm]

/-- How far a poll reads. -/
lemma exists_ended (limit : ℕ) : ∃ m, Drain.Ended stamp (deliver readers store) (limit + 1)
    pollScanCeiling (pendingRows readers store scope path) m
    (Drain.run stamp (deliver readers store) (limit + 1) pollScanCeiling
      (batchAfter readers store scope path) pollScanCeiling {}) :=
  Drain.run_spec (sortRows_strict
    (store.queue.nodup.sublist (List.filter_sublist.map EventRow.id))) batchAfter_eq Drain.at_zero
    rfl (by omega)

/-- Before a row that goes out, fewer rows are held back than a poll looks at. -/
def FewHeldBack (readers : PayloadReaders) (store : Store) (scope : PollScope)
    (path : Json.Path) : Prop :=
  ∀ row ∈ pendingRows readers store scope path, (deliver readers store row).isSome →
    ((pendingRows readers store scope path).countP fun other =>
      (deliver readers store other).isNone && decide (stamp other < stamp row)) < pollScanCeiling

lemma pollLimit_pos (topK : ℤ) : 0 < pollLimit topK := by
  have : (1 : ℤ) ≤ max 1 (min topK maxPollTopK) := le_max_left _ _
  unfold pollLimit
  omega

/-- When something is to be delivered, fewer rows than a poll looks at are in front of the first. -/
lemma exists_first (hfew : FewHeldBack readers store scope path)
    (hne : admitted readers store scope path ≠ []) :
    ∃ front row back, pendingRows readers store scope path = front ++ row :: back ∧
      (deliver readers store row).isSome ∧ (∀ other ∈ front, deliver readers store other = none) ∧
      front.length < pollScanCeiling := by
  set l := pendingRows readers store scope path with hl
  obtain ⟨event, hevent⟩ := List.exists_mem_of_ne_nil _ hne
  obtain ⟨some, hsome, hdeliver⟩ := List.mem_filterMap.mp hevent
  have hfind : (l.find? fun row => (deliver readers store row).isSome).isSome := by
    rw [List.find?_isSome]
    exact ⟨some, hsome, by rw [hdeliver]; rfl⟩
  obtain ⟨row, hrow⟩ := Option.isSome_iff_exists.mp hfind
  obtain ⟨hdelivered, front, back, hsplit, hfront⟩ := List.find?_eq_some_iff_append.mp hrow
  have hheld : ∀ other ∈ front, deliver readers store other = none := by
    intro other hother
    simpa using hfront other hother
  refine ⟨front, row, back, hsplit, hdelivered, hheld, ?_⟩
  have hcount := hfew row (by rw [← hl, hsplit]; simp) hdelivered
  have hstrict : (l.map stamp).Pairwise (· < ·) :=
    sortRows_strict (store.queue.nodup.sublist (List.filter_sublist.map EventRow.id))
  rw [hsplit, List.map_append, List.map_cons, List.pairwise_append] at hstrict
  have hall : front.countP (fun other => (deliver readers store other).isNone &&
      decide (stamp other < stamp row)) = front.length := by
    rw [List.countP_eq_length]
    intro other hother
    have hlt := hstrict.2.2 (stamp other) (List.mem_map_of_mem hother) (stamp row)
      List.mem_cons_self
    simp [hheld other hother, hlt]
  rw [← hl, hsplit, List.countP_append, hall] at hcount
  omega

/-- A poll returns a prefix of what is to be delivered: the whole of it, unless it says that there
is more, and something, unless the head of the queue is held back. -/
theorem exists_pollEvents (hslot : slot scope.consumerId = some path) (topK : ℤ) :
    ∃ out, pollEvents readers store scope topK = some out ∧
      out.events <+: admitted readers store scope path ∧ out.events.length ≤ pollLimit topK ∧
      (out.hasMore = false → out.events = admitted readers store scope path) ∧
      (FewHeldBack readers store scope path → admitted readers store scope path ≠ [] →
        out.events ≠ []) := by
  obtain ⟨m, hended⟩ := @exists_ended readers store scope path (pollLimit topK)
  simp only [pollEvents, hslot]
  generalize Drain.run stamp (deliver readers store) (pollLimit topK + 1) pollScanCeiling
    (batchAfter readers store scope path) pollScanCeiling {} = last at hended ⊢
  have hkept : last.kept <+: admitted readers store scope path := by
    rw [hended.kept]
    exact (List.take_prefix m _).filterMap _
  refine ⟨_, rfl, (List.take_prefix _ _).trans hkept, List.length_take_le _ _, ?_, ?_⟩
  · intro hmore
    simp only [Bool.or_eq_false_iff, decide_eq_false_iff_not, Bool.and_eq_false_iff,
      Bool.not_eq_false'] at hmore
    have hout : last.ranOut = true := by
      by_contra hrun
      have hrun : last.ranOut = false := by simpa using hrun
      have hexamined := hended.examined
      rcases hended.stopped hrun with henough | hceiling
      · omega
      · rcases hmore.2 with htrue | hbelow
        · rw [hrun] at htrue
          cases htrue
        · omega
    simp only
    rw [List.take_of_length_le (by omega), hended.kept, hended.out hout, List.take_length, admitted]
  · intro hfew hne
    obtain ⟨front, row, back, hsplit, hdelivered, hheld, hfront⟩ := exists_first hfew hne
    have hpast : front.length < m := by
      by_contra hle
      have hnone : last.kept = [] := by
        rw [hended.kept, hsplit, List.take_append_of_le_length (by omega),
          List.filterMap_eq_nil_iff]
        exact fun other hother => hheld other (List.mem_of_mem_take hother)
      cases hrun : last.ranOut with
      | true =>
        have hall := hended.out hrun
        rw [hsplit, List.length_append, List.length_cons] at hall
        omega
      | false =>
        rcases hended.stopped hrun with henough | hceiling
        · rw [hnone] at henough
          cases henough
        · omega
    have hmem : row ∈ (pendingRows readers store scope path).take m := by
      rw [hsplit, List.take_append, List.take_cons (by omega)]
      simp
    obtain ⟨event, hevent⟩ := Option.isSome_iff_exists.mp hdelivered
    have hin : event ∈ last.kept := by
      rw [hended.kept]
      exact List.mem_filterMap.mpr ⟨row, hmem, hevent⟩
    have hpos := pollLimit_pos topK
    simp only
    intro hnil
    rcases List.take_eq_nil_iff.mp hnil with hzero | hempty
    · omega
    · rw [hempty] at hin
      cases hin

/-! ## Acknowledging what was delivered -/

/-- A row after some events were acknowledged. -/
def ackIn (path : Json.Path) (now : Str) (ids : List ℤ) (row : EventRow) : EventRow :=
  if row.id ∈ ids then ackRow path now row else row

lemma id_ackIn (path : Json.Path) (now : Str) (ids : List ℤ) (row : EventRow) :
    (ackIn path now ids row).id = row.id := by
  unfold ackIn
  split <;> rfl

/-- Events that are in the queue are all acknowledged. -/
lemma ackEvents_eq (hslot : slot scope.consumerId = some path) (now : Str) {ids : List ℤ}
    (hnodup : ids.Nodup) {queue : EventTable} (hids : ∀ id ∈ ids, ∃ row ∈ queue, row.id = id) :
    ∃ queue' outcome, ackEvents queue scope.consumerId now ids = some (queue', outcome) ∧
      queue'.rows = queue.rows.map (ackIn path now ids) := by
  suffices h : ∀ outcome : AckOutcome, ∃ queue' outcome',
      ids.foldlM (ackEvent scope.consumerId now) (queue, outcome) = some (queue', outcome') ∧
        queue'.rows = queue.rows.map (ackIn path now ids) from h {}
  induction ids generalizing queue with
  | nil => exact fun outcome => ⟨queue, outcome, rfl, by
      have hsame : ackIn path now [] = id := by
        funext row
        simp [ackIn]
      rw [hsame, List.map_id]⟩
  | cons id ids ih =>
    intro outcome
    obtain ⟨hfresh, hnodup⟩ := List.nodup_cons.mp hnodup
    have hany : (queue.rows.any fun row => row.id = id) = true := by
      obtain ⟨row, hrow, hid⟩ := hids id List.mem_cons_self
      exact List.any_eq_true.mpr ⟨row, hrow, by simpa using hid⟩
    set next : EventTable := queue.update (fun row => row.id = id) (ackRow path now) fun _ => rfl
      with hnext
    have hids' : ∀ id' ∈ ids, ∃ row ∈ next, row.id = id' := by
      intro id' hid'
      obtain ⟨row, hrow, heq⟩ := hids id' (List.mem_cons_of_mem _ hid')
      refine ⟨_, Table.mem_update_iff.mpr ⟨row, hrow, rfl⟩, ?_⟩
      split <;> exact heq
    obtain ⟨queue', outcome', hrun, hrows⟩ := ih hnodup hids'
      { outcome with acked := outcome.acked + 1 }
    refine ⟨queue', outcome', ?_, ?_⟩
    · rw [List.foldlM_cons, ackEvent, if_pos hany, hslot]
      exact hrun
    · have hupdate : next.rows = queue.rows.map fun row =>
          if decide (row.id = id) = true then ackRow path now row else row := rfl
      rw [hrows, hupdate, List.map_map]
      refine List.map_congr_left fun row _ => ?_
      by_cases hid : row.id = id
      · have hlater : (ackRow path now row).id ∉ ids := by
          rw [show (ackRow path now row).id = id from hid]
          exact hfresh
        simp [ackIn, hid, hlater]
      · simp [ackIn, hid]

/-- An acknowledgement of this row fills the slot. -/
def Takes (path : Json.Path) (row : EventRow) : Prop :=
  ∀ now, isAcked path (ackRow path now row) = true

/-- Acknowledged rows are not pending any more, and nothing else changes. -/
lemma pendingRows_acked {queue' : EventTable} {now : Str} {ids : List ℤ}
    (hrows : queue'.rows = store.queue.rows.map (ackIn path now ids))
    (htakes : ∀ row ∈ store.queue, row.id ∈ ids → Takes path row) :
    pendingRows readers { store with queue := queue' } scope path =
      (pendingRows readers store scope path).filter fun row => row.id ∉ ids := by
  have hnodup : ((store.queue.rows.filter (pending readers store scope path)).map
      EventRow.id).Nodup :=
    store.queue.nodup.sublist (List.filter_sublist.map EventRow.id)
  have hpicked : queue'.rows.filter (pending readers { store with queue := queue' } scope path) =
      (store.queue.rows.filter (pending readers store scope path)).filter
        fun row => row.id ∉ ids := by
    rw [hrows, List.filter_map, List.filter_filter]
    have hcond : ∀ row ∈ store.queue.rows,
        (pending readers { store with queue := queue' } scope path ∘ ackIn path now ids) row =
          (decide (row.id ∉ ids) && pending readers store scope path row) := by
      intro row hrow
      by_cases hid : row.id ∈ ids
      · have hacked : isAcked path (ackRow path now row) = true := htakes row hrow hid now
        simp [pending, ackIn, hid, hacked]
      · simp only [Function.comp_apply, ackIn, hid, if_false, not_false_eq_true, decide_true,
          Bool.true_and]
        rfl
    rw [List.filter_congr hcond]
    conv_rhs => rw [← List.map_id (List.filter _ _)]
    refine List.map_congr_left fun row hrow => ?_
    have hid : row.id ∉ ids := by
      have := List.of_mem_filter hrow
      simp only [Bool.and_eq_true, decide_eq_true_eq] at this
      exact this.1
    simp [ackIn, hid]
  rw [pendingRows, hpicked, sortRows_filter hnodup, pendingRows]

lemma id_of_deliver {row : EventRow} {event : PolledEvent}
    (h : deliver readers store row = some event) : event.eventId = row.id := by
  unfold deliver at h
  obtain ⟨payload, -, h⟩ := Option.bind_eq_some_iff.mp h
  split at h
  · rw [← Option.some.inj h]
  · cases h

/-- What is to be delivered afterwards is what was, less what was acknowledged. -/
lemma admitted_filter (l : List EventRow) (ids : List ℤ) :
    (l.filter fun row => row.id ∉ ids).filterMap (deliver readers store) =
      (l.filterMap (deliver readers store)).filter fun event => event.eventId ∉ ids := by
  rw [List.filter_filterMap, List.filterMap_filter]
  refine List.filterMap_congr fun row _ => ?_
  cases hdeliver : deliver readers store row with
  | none => simp
  | some event =>
    have hevent := id_of_deliver hdeliver
    by_cases hid : row.id ∈ ids <;> simp [hid, hevent, Option.filter]

/-- The events are those of the rows that go out. -/
lemma map_eventId (l : List EventRow) :
    (l.filterMap (deliver readers store)).map PolledEvent.eventId =
      (l.filter fun row => (deliver readers store row).isSome).map EventRow.id := by
  induction l with
  | nil => rfl
  | cons row l ih =>
    cases hdeliver : deliver readers store row with
    | none => simpa [hdeliver] using ih
    | some event => simpa [hdeliver, id_of_deliver hdeliver] using ih

lemma nodup_admitted :
    ((admitted readers store scope path).map PolledEvent.eventId).Nodup := by
  rw [admitted, map_eventId]
  exact nodup_pendingRows.sublist (List.filter_sublist.map EventRow.id)

/-! ## The whole drain -/

variable (readers scope) in
/-- Polls one after the other, each acknowledged in full, as long as there is more; the events they
deliver. -/
def drained (topK : ℤ) (now : ℕ → Str) : ℕ → Store → List PolledEvent
  | 0, _ => []
  | polls + 1, store =>
    match pollEvents readers store scope topK with
    | none => []
    | some out =>
      out.events ++
        if out.hasMore then
          match ackEvents store.queue scope.consumerId (now polls)
              (out.events.map PolledEvent.eventId) with
          | some (queue, _) => drained topK now polls { store with queue := queue }
          | none => []
        else []

/-- Every row that goes out takes an acknowledgement. -/
def AllTake (readers : PayloadReaders) (store : Store) (scope : PollScope) (path : Json.Path) :
    Prop :=
  ∀ row ∈ pendingRows readers store scope path, (deliver readers store row).isSome →
    Takes path row

/-- What is left after a poll and its acknowledgement. -/
lemma exists_acked (hslot : slot scope.consumerId = some path)
    (htake : AllTake readers store scope path) (hfew : FewHeldBack readers store scope path)
    (now : Str) {events rest : List PolledEvent}
    (hsplit : admitted readers store scope path = events ++ rest) :
    ∃ queue outcome, ackEvents store.queue scope.consumerId now
        (events.map PolledEvent.eventId) = some (queue, outcome) ∧
      admitted readers { store with queue := queue } scope path = rest ∧
      AllTake readers { store with queue := queue } scope path ∧
      FewHeldBack readers { store with queue := queue } scope path := by
  set ids := events.map PolledEvent.eventId with hids
  have hnodup := @nodup_admitted readers store scope path
  rw [hsplit, List.map_append, List.nodup_append] at hnodup
  -- the acknowledged events are those of rows that go out
  have hrow : ∀ id ∈ ids, ∃ row ∈ pendingRows readers store scope path,
      row.id = id ∧ (deliver readers store row).isSome := by
    intro id hid
    obtain ⟨event, hevent, rfl⟩ := List.mem_map.mp hid
    have hadmitted : event ∈ admitted readers store scope path := by
      rw [hsplit]
      exact List.mem_append_left _ hevent
    obtain ⟨row, hrow, hdeliver⟩ := List.mem_filterMap.mp hadmitted
    exact ⟨row, hrow, (id_of_deliver hdeliver).symm, by rw [hdeliver]; rfl⟩
  have hmem : ∀ row ∈ pendingRows readers store scope path, row ∈ store.queue :=
    fun row h => List.mem_of_mem_filter (mem_sortRows.mp h)
  obtain ⟨queue, outcome, hack, hrows⟩ := ackEvents_eq hslot now hnodup.1 fun id hid => by
    obtain ⟨row, hpending, hid', -⟩ := hrow id hid
    exact ⟨row, hmem row hpending, hid'⟩
  have htakes : ∀ row ∈ store.queue, row.id ∈ ids → Takes path row := by
    intro row hqueue hid
    obtain ⟨row', hpending, hid', hdelivered⟩ := hrow row.id hid
    obtain rfl := Table.eq_of_key_eq (hmem row' hpending) hqueue hid'
    exact htake row' hpending hdelivered
  have hleft := @pendingRows_acked readers store scope path _ _ _ hrows htakes
  refine ⟨queue, outcome, hack, ?_, ?_, ?_⟩
  · have hadmitted : admitted readers { store with queue := queue } scope path =
        (admitted readers store scope path).filter fun event => event.eventId ∉ ids := by
      rw [admitted, hleft]
      exact admitted_filter _ ids
    rw [hadmitted, hsplit, List.filter_append]
    have hgone : (events.filter fun event => event.eventId ∉ ids) = [] := by
      rw [List.filter_eq_nil_iff]
      intro event hevent
      simpa [hids] using ⟨event, hevent, rfl⟩
    have hstay : (rest.filter fun event => event.eventId ∉ ids) = rest := by
      rw [List.filter_eq_self]
      intro event hevent
      have hother := fun id hid => hnodup.2.2 id hid event.eventId (List.mem_map_of_mem hevent)
      exact decide_eq_true fun hid => hother event.eventId hid rfl
    rw [hgone, hstay, List.nil_append]
  · intro row hrow hdelivered
    rw [hleft] at hrow
    exact htake row (List.mem_of_mem_filter hrow) hdelivered
  · intro row hrow hdelivered
    rw [hleft] at hrow ⊢
    exact lt_of_le_of_lt (List.filter_sublist.countP_le)
      (hfew row (List.mem_of_mem_filter hrow) hdelivered)

/-- Polls that are acknowledged deliver each event once, in order. -/
theorem drained_eq (hslot : slot scope.consumerId = some path) (topK : ℤ) (now : ℕ → Str)
    {polls : ℕ} (htake : AllTake readers store scope path)
    (hfew : FewHeldBack readers store scope path)
    (henough : (admitted readers store scope path).length ≤ polls) :
    drained readers scope topK now polls store = admitted readers store scope path := by
  induction polls generalizing store with
  | zero => exact (List.eq_nil_of_length_eq_zero (Nat.le_zero.mp henough)).symm
  | succ polls ih =>
    obtain ⟨out, hpoll, ⟨rest, hrest⟩, -, hall, hsome⟩ :=
      @exists_pollEvents readers store scope path hslot topK
    rw [drained, hpoll]
    cases hmore : out.hasMore with
    | false => simp [hmore, hall hmore]
    | true =>
      obtain ⟨queue, outcome, hack, hadmitted, htake', hfew'⟩ :=
        exists_acked hslot htake hfew (now polls) hrest.symm
      have hlen : rest.length ≤ polls := by
        rw [← hrest, List.length_append] at henough
        cases hevents : out.events with
        | nil =>
          have hnil : admitted readers store scope path = [] := by
            by_contra hne
            exact hsome hfew hne hevents
          rw [← hrest, hevents, List.nil_append] at hnil
          simp [hnil]
        | cons event events =>
          rw [hevents, List.length_cons] at henough
          omega
      simp only [hmore, if_true, hack]
      rw [ih htake' hfew' (by rw [hadmitted]; exact hlen), hadmitted, hrest]

/-- The events a consumer is to receive, under the slot its id names. -/
def toDeliver (readers : PayloadReaders) (store : Store) (scope : PollScope) : List PolledEvent :=
  ((slot scope.consumerId).map (admitted readers store scope)).getD []

/-- A poll answers with a prefix of what is to be delivered, and with all of it unless it says that
there is more. -/
def PollsExactly (readers : PayloadReaders) (store : Store) (scope : PollScope) : Prop :=
  ∀ topK, ∃ out, pollEvents readers store scope topK = some out ∧
    out.events <+: toDeliver readers store scope ∧ out.events.length ≤ pollLimit topK ∧
    (out.hasMore = false → out.events = toDeliver readers store scope)

/-- Polls that are acknowledged deliver what is to be delivered, each event once and in order,
when they are as many. -/
def DrainsExactly (readers : PayloadReaders) (store : Store) (scope : PollScope) : Prop :=
  ∀ topK now polls, (toDeliver readers store scope).length ≤ polls →
    drained readers scope topK now polls store = toDeliver readers store scope

/-- In a queue that one poll reads to its end, too few rows are held back to matter. -/
lemma fewHeldBack_of_length (h : store.queue.rows.length < pollScanCeiling) :
    FewHeldBack readers store scope path := by
  intro row _ _
  refine lt_of_le_of_lt List.countP_le_length (lt_of_le_of_lt ?_ h)
  rw [pendingRows, sortRows, List.length_insertionSort]
  exact List.length_filter_le _ _

/-- A consumer whose id is a member's name is written into any row. -/
lemma takes_of_member {row : EventRow} {members : List (Str × Json)}
    (hacks : row.acks = .obj members) : Takes [.key scope.consumerId] row := by
  intro now
  have hopen : ∀ j, Json.Open [] j := fun _ => trivial
  have hget := Json.get_set (v := .str now) (p := [.key scope.consumerId]) (j := row.acks)
    (by simp [Json.Plain, Json.Step.Plain])
    (by rw [hacks]; exact ⟨trivial, fun x _ => hopen x⟩)
  simp [isAcked, ackRow, hget, isSet]

/-! ### An id that leads into another consumer's slot -/

/-- A reader of payloads for events without one. -/
def noPayloads : PayloadReaders := ⟨fun _ => none, fun _ => none⟩

/-- Two notices for the operator, both acknowledged by `a`. -/
def acknowledgedByA : Store where
  queue :=
    ⟨[{ id := 1, kind := "archive_proposal".toList, createdAt := "2026-01-01".toList
        acks := .obj [("a".toList, .str "2026-01-03".toList)] },
      { id := 2, kind := "archive_proposal".toList, createdAt := "2026-01-02".toList
        acks := .obj [("a".toList, .str "2026-01-03".toList)] }], by decide⟩
  registry := ⟨⟨[], by decide⟩, ⟨[], by decide⟩, ⟨[], by decide⟩, []⟩
  facts := ⟨[], by decide⟩

end Mwe.Events
