import MweCore.Briefing.Inbox
import MweCore.Lib.Run

/-!
# The hourly cap on notes

`notify_append` refuses a note when the table holds as many rows of its wiki as the cap, with a
stamp above the text of the instant an hour ago.  The stamp is what the caller supplied, or else the
instant written with a `T`; the text it is compared with has a blank there.  So a note without a
stamp of the caller's counts from the day of the instant an hour ago on
(`bound_lt_stamp_iff`), and one with a stamp counts as the stamp sorts.

Calls take their steps in any order and at any instants.  `hourly_cap_exact_iff` says when the cap
is on the notes of the last hour all the same: the older notes that count and the recent ones that
do not must leave the number on the same side of the cap.
-/

namespace Mwe.Briefing

open Str Rfc3339

/-! ## The clock -/

/-- An hour, in nanoseconds. -/
def hour : ℕ := 3600 * 1000000000

/-- The calendar, for the years that have four digits. -/
structure Calendar where
  civil : ℕ → Civil
  year_le : ∀ t, (civil t).year ≤ 9999

/-- `YYYY-MM-DD HH:MM:SS` -/
def dateTime (c : Civil) : Str :=
  pad 4 c.year ++ '-' :: (pad 2 c.month ++ '-' :: (pad 2 c.day ++ ' ' :: (pad 2 c.hour ++
    ':' :: (pad 2 c.minute ++ ':' :: pad 2 c.second))))

/-- A step's reading of the clock. -/
def Calendar.clock (cal : Calendar) (t : ℕ) : Clock where
  now := cal.civil t
  hourAgo := dateTime (cal.civil (t - hour))

/-! ## All wikis -/

/-- A note that was accepted: when, what the caller gave, and its row. -/
structure Accepted where
  instant : ℕ
  note : Note
  row : BriefingRow

/-- The table, the files, the calls under way, and the notes accepted so far. -/
structure Board where
  items : Items
  files : WikiId → Option Str
  calls : ℕ → Option (WikiId × Actor)
  accepted : List Accepted

/-- Nothing has happened yet. -/
def Board.empty : Board where
  items := { rows := Sql.Table.empty _, seq := 0, le_seq := by rintro r ⟨⟩ }
  files _ := none
  calls _ := none
  accepted := []

/-- A call begins, or takes its next step at an instant. -/
inductive Move where
  | begin (n : ℕ) (wikiId : WikiId) (req : NotifyRequest)
  | go (n t : ℕ)

/-- What a step of a call sees of the board. -/
def Board.seenFrom (s : Board) (wikiId : WikiId) : State where
  items := s.items
  file := s.files wikiId
  actors _ := none

/-- What a step adds to the notes that were accepted. -/
def acceptedBy (cal : Calendar) (s : Board) (wikiId : WikiId) (t : ℕ) : Actor → List Accepted
  | .inserting note =>
    [⟨t, note, note.row wikiId (cal.clock t).now.render (s.items.seq + 1)⟩]
  | _ => []

/-- One step of one call. -/
def Board.step (cal : Calendar) (s : Board) : Move → Option Board
  | .begin n wikiId req =>
    match s.calls n with
    | some _ => none
    | none =>
      match accept req with
      | .error _ => some s
      | .ok note =>
        some { s with calls := Function.update s.calls n (some (wikiId, Actor.counting note)) }
  | .go n t =>
    (s.calls n).map fun call =>
      let after := act call.1 (cal.clock t) (s.seenFrom call.1) call.2
      { items := after.1.items
        files := Function.update s.files call.1 after.1.file
        calls := Function.update s.calls n (after.2.map fun a => (call.1, a))
        accepted := s.accepted ++ acceptedBy cal s call.1 t call.2 }

/-- A board that some history of calls led to. -/
structure Reached (cal : Calendar) where
  board : Board
  history : List Move
  led : history.foldlM (Board.step cal) Board.empty = some board

/-! ## What the cap is for -/

/-- A note that comes to be counted is refused. -/
def Board.Refuses (cal : Calendar) (s : Board) (wikiId : WikiId) (note : Note) (t : ℕ) : Prop :=
  (act wikiId (cal.clock t) (s.seenFrom wikiId) (Actor.counting note)).2 = none

/-- A note was accepted for a wiki. -/
def Accepted.isFor (wikiId : WikiId) (a : Accepted) : Prop := a.row.wikiId = wikiId

/-- A note was accepted in the hour before an instant. -/
def Accepted.Recent (t : ℕ) (a : Accepted) : Prop := a.instant ≤ t ∧ t < a.instant + hour

/-- The day of an instant is that of another or before it. -/
def DayLe (c d : Civil) : Prop :=
  c.year < d.year ∨ c.year = d.year ∧ (c.month < d.month ∨ c.month = d.month ∧ c.day ≤ d.day)

/-- A note counts: the stamp its caller gave sorts above the instant an hour ago, or without one it
was accepted on the day of that instant or later. -/
def Accepted.Counts (cal : Calendar) (t : ℕ) (a : Accepted) : Prop :=
  match a.note.ts with
  | some ts => dateTime (cal.civil (t - hour)) < ts
  | none => DayLe (cal.civil (t - hour)) (cal.civil a.instant)

instance (wikiId : WikiId) (a : Accepted) : Decidable (a.isFor wikiId) :=
  inferInstanceAs (Decidable (_ = _))

instance (t : ℕ) (a : Accepted) : Decidable (a.Recent t) := inferInstanceAs (Decidable (_ ∧ _))

instance (c d : Civil) : Decidable (DayLe c d) := inferInstanceAs (Decidable (_ ∨ _))

instance (cal : Calendar) (t : ℕ) (a : Accepted) : Decidable (a.Counts cal t) :=
  match h : a.note.ts with
  | some ts => decidable_of_iff (dateTime (cal.civil (t - hour)) < ts)
      (by rw [Accepted.Counts, h])
  | none => decidable_of_iff (DayLe (cal.civil (t - hour)) (cal.civil a.instant))
      (by rw [Accepted.Counts, h])

namespace Board

variable (cal : Calendar) (s : Board) (wikiId : WikiId) (t : ℕ)

/-- The notes accepted for a wiki in the hour before an instant. -/
def inLastHour : ℕ := s.accepted.countP fun a => a.isFor wikiId ∧ a.Recent t

/-- The notes of a wiki that count though they are older than an hour. -/
def lingering : ℕ := s.accepted.countP fun a => a.isFor wikiId ∧ a.Counts cal t ∧ ¬ a.Recent t

/-- The notes of a wiki that do not count though they are not. -/
def missed : ℕ := s.accepted.countP fun a => a.isFor wikiId ∧ a.Recent t ∧ ¬ a.Counts cal t

/-- The notes that linger and those that are missed leave the number on its side of the cap. -/
def CapUndisturbed : Prop :=
  if notifyRatePerHour ≤ s.inLastHour wikiId t then
    s.missed cal wikiId t ≤ s.lingering cal wikiId t + (s.inLastHour wikiId t - notifyRatePerHour)
  else
    s.lingering cal wikiId t < s.missed cal wikiId t + (notifyRatePerHour - s.inLastHour wikiId t)

end Board

/-! ## Stamps -/

/-- A stamp the engine writes sorts above the text of an instant from that instant's day on. -/
theorem bound_lt_stamp_iff {c d : Civil} (hd : d.year ≤ 9999) (hc : c.year ≤ 9999) :
    dateTime c < d.render ↔ DayLe c d := by
  have hself : ∀ (a : Char) {x y : List Char}, a :: x < a :: y ↔ x < y := by
    intro a x y
    simp
  have hblank : ∀ {x y : List Char}, ' ' :: x < 'T' :: y := by
    intro x y
    exact List.cons_lt_cons_iff.mpr (Or.inl (by decide))
  simp only [dateTime, Civil.render, Civil.renderYear, if_pos hd]
  rw [pad_append_lt_iff 4 _ _ (by omega) (by omega), hself,
    pad_append_lt_iff 2 _ _ c.month_lt d.month_lt, hself,
    pad_append_lt_iff 2 _ _ c.day_lt d.day_lt]
  simp only [hblank, and_true, DayLe, Nat.le_iff_lt_or_eq]

/-! ## Histories -/

/-- The rows of the table are those of the notes that were accepted, as they were accepted. -/
structure Mirrored (cal : Calendar) (s : Board) : Prop where
  rows : s.items.rows.rows = s.accepted.map Accepted.row
  stamped : ∀ a ∈ s.accepted, a.row.ts = a.note.ts.getD (cal.civil a.instant).render

lemma Mirrored.step {cal : Calendar} {s s' : Board} {m : Move} (h : Mirrored cal s)
    (hstep : s.step cal m = some s') : Mirrored cal s' := by
  rcases m with ⟨n, wikiId, req⟩ | ⟨n, t⟩
  · rw [Board.step] at hstep
    split at hstep
    · cases hstep
    · split at hstep
      · obtain rfl := Option.some.inj hstep
        exact h
      · obtain rfl := Option.some.inj hstep
        exact ⟨h.rows, h.stamped⟩
  · obtain ⟨⟨wikiId, a⟩, -, rfl⟩ := Option.map_eq_some_iff.mp hstep
    rcases a with note | note | row | ⟨row, existing⟩
    · have hitems : (act wikiId (cal.clock t) (s.seenFrom wikiId)
          (Actor.counting note)).1.items = s.items := by
        rw [act]
        split <;> rfl
      refine ⟨?_, by simpa [acceptedBy] using h.stamped⟩
      change (act wikiId (cal.clock t) (s.seenFrom wikiId)
        (Actor.counting note)).1.items.rows.rows = (s.accepted ++ []).map Accepted.row
      rw [hitems, List.append_nil, h.rows]
    · refine ⟨?_, ?_⟩
      · change s.items.rows.rows ++ [_] = (s.accepted ++ [_]).map Accepted.row
        rw [h.rows, List.map_append]
        rfl
      · intro a ha
        rcases List.mem_append.mp ha with ha | ha
        · exact h.stamped a ha
        · rw [List.mem_singleton.mp ha]
          rfl
    all_goals
      refine ⟨?_, by simpa [acceptedBy] using h.stamped⟩
      change s.items.rows.rows = (s.accepted ++ []).map Accepted.row
      rw [List.append_nil, h.rows]

/-- Every board keeps the notes it accepted. -/
lemma Reached.mirrored {cal : Calendar} (r : Reached cal) : Mirrored cal r.board :=
  Run.preserved (fun _ _ _ _ hstep h => h.step hstep) r.led ⟨rfl, by rintro a ⟨⟩⟩

/-- What the table counts are the notes that count. -/
lemma Mirrored.counted {cal : Calendar} {s : Board} (h : Mirrored cal s) (wikiId : WikiId) (t : ℕ) :
    (s.items.rows.rows.countP fun r => r.wikiId = wikiId ∧ (cal.clock t).hourAgo < r.ts) =
      s.accepted.countP fun a => a.isFor wikiId ∧ a.Counts cal t := by
  rw [h.rows, List.countP_map]
  refine List.countP_congr fun a ha => ?_
  simp only [Function.comp_apply, decide_eq_true_eq]
  refine and_congr_right fun _ => ?_
  rw [h.stamped a ha, Accepted.Counts]
  rcases a.note.ts with _ | ts
  · exact bound_lt_stamp_iff (cal.year_le _) (cal.year_le _)
  · rfl

/-- Two counts of a list differ by what only the one and what only the other takes. -/
lemma countP_add_countP {α : Type*} (p q : α → Bool) (l : List α) :
    l.countP p + l.countP (fun x => q x && !p x) =
      l.countP q + l.countP (fun x => p x && !q x) := by
  induction l with
  | nil => rfl
  | cons x l ih =>
    simp only [List.countP_cons]
    by_cases hp : p x = true <;> by_cases hq : q x = true <;> simp [hp, hq] <;> omega

/-- A note is refused exactly when the cap's number of notes were accepted for the wiki in the hour
before, provided and only provided that the older notes that count and the recent ones that do not
leave the number on its side of the cap. -/
theorem hourly_cap_exact_iff (cal : Calendar) (r : Reached cal) (wikiId : WikiId) (note : Note)
    (t : ℕ) :
    (r.board.Refuses cal wikiId note t ↔ notifyRatePerHour ≤ r.board.inLastHour wikiId t) ↔
      r.board.CapUndisturbed cal wikiId t := by
  have hrefuses : r.board.Refuses cal wikiId note t ↔ notifyRatePerHour ≤
      r.board.accepted.countP fun a => a.isFor wikiId ∧ a.Counts cal t := by
    rw [Board.Refuses, act, ← r.mirrored.counted]
    change (if notifyRatePerHour ≤ r.board.items.rows.rows.countP _ then (_, none) else
      (_, some _)).2 = none ↔ _
    by_cases hfull : notifyRatePerHour ≤ r.board.items.rows.rows.countP fun row =>
        decide (row.wikiId = wikiId ∧ (cal.clock t).hourAgo < row.ts)
    · rw [if_pos hfull]
      exact iff_of_true rfl hfull
    · rw [if_neg hfull]
      exact iff_of_false (Option.some_ne_none _) hfull
  have hsplit := countP_add_countP
    (fun a : Accepted => decide (a.isFor wikiId ∧ a.Counts cal t))
    (fun a : Accepted => decide (a.isFor wikiId ∧ a.Recent t)) r.board.accepted
  have hmissed : (r.board.accepted.countP fun a : Accepted =>
      decide (a.isFor wikiId ∧ a.Recent t) && !decide (a.isFor wikiId ∧ a.Counts cal t)) =
        r.board.missed cal wikiId t := by
    refine List.countP_congr fun a _ => ?_
    simp only [Bool.and_eq_true, Bool.not_eq_true', decide_eq_true_eq, decide_eq_false_iff_not]
    exact ⟨fun h => ⟨h.1.1, h.1.2, fun hc => h.2 ⟨h.1.1, hc⟩⟩,
      fun h => ⟨⟨h.1, h.2.1⟩, fun hc => h.2.2 hc.2⟩⟩
  have hlingering : (r.board.accepted.countP fun a : Accepted =>
      decide (a.isFor wikiId ∧ a.Counts cal t) && !decide (a.isFor wikiId ∧ a.Recent t)) =
        r.board.lingering cal wikiId t := by
    refine List.countP_congr fun a _ => ?_
    simp only [Bool.and_eq_true, Bool.not_eq_true', decide_eq_true_eq, decide_eq_false_iff_not]
    exact ⟨fun h => ⟨h.1.1, h.1.2, fun hc => h.2 ⟨h.1.1, hc⟩⟩,
      fun h => ⟨⟨h.1, h.2.1⟩, fun hc => h.2.2 hc.2⟩⟩
  rw [hmissed, hlingering] at hsplit
  rw [hrefuses, Board.CapUndisturbed]
  rw [← Board.inLastHour] at hsplit
  split <;> omega

/-- The cap is undisturbed where no note lingers and none is missed. -/
theorem capUndisturbed_of_none {cal : Calendar} {s : Board} {wikiId : WikiId} {t : ℕ}
    (hlingering : s.lingering cal wikiId t = 0) (hmissed : s.missed cal wikiId t = 0) :
    s.CapUndisturbed cal wikiId t := by
  rw [Board.CapUndisturbed, hlingering, hmissed]
  split <;> omega

/-! ## A quiet hour -/

instance (cal : Calendar) (s : Board) (wikiId : WikiId) (note : Note) (t : ℕ) :
    Decidable (s.Refuses cal wikiId note t) := inferInstanceAs (Decidable (_ = _))

/-- One day, counted from its midnight. -/
private def july30 : Calendar where
  civil t :=
    { year := 2026, month := 7, day := 30, hour := t / hour % 24
      minute := t / 60000000000 % 60, second := t / 1000000000 % 60, nanos := t % 1000000000
      month_lt := by decide
      day_lt := by decide
      hour_lt := by omega
      minute_lt := by omega
      second_lt := by omega
      nanos_lt := Nat.mod_lt _ (by decide) }
  year_le _ := by dsimp only; omega

/-- A wiki, and a note for it without a stamp. -/
private def board : WikiId := ⟨"alice-proj".toList, by decide⟩
private def reminder : NotifyRequest where
  topic := "Topic".toList
  body := "Body".toList
  sourceKind := .user
  sourceRef := "user:frodo".toList
  kind := none
  targetCite := none
  ts := none

/-- Fifty notes at ten in the morning. -/
private def morning : List Move :=
  (List.range 50).flatMap fun n =>
    [Move.begin n board reminder, Move.go n (10 * hour), Move.go n (10 * hour)]

private lemma morning_runs : (morning.foldlM (Board.step july30) Board.empty).isSome = true := by
  decide +kernel

/-- At noon a note is refused for fifty that were left at ten. -/
theorem refused_in_a_quiet_hour :
    ¬ ∀ (cal : Calendar) (r : Reached cal) (wikiId : WikiId) (note : Note) (t : ℕ),
      r.board.Refuses cal wikiId note t ↔ notifyRatePerHour ≤ r.board.inLastHour wikiId t := by
  intro h
  have hcap := h july30 ⟨_, morning, (Option.some_get morning_runs).symm⟩ board
    ⟨"Topic".toList, "Body".toList, .user, "user:frodo".toList, none, none, none⟩ (12 * hour)
  revert hcap
  decide +kernel

end Mwe.Briefing
