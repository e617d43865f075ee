import MweCore.Briefing.Document
import MweCore.Lib.Run

/-!
# The inbox file and the inbox table

The row of a note is inserted by one statement, and its section goes into the file by a read and a
write with nothing between them but time.  Two calls that read the same file leave the section of
one of them; and the texts of a note are pasted as they are, so that one of them can begin a line
with the heading of a note that nobody left.  `Careful` says of one step that it does neither.

`agrees_of_careful` is the law for runs of such steps: at rest the file and the table agree.
-/

namespace Mwe

open Str Sql

namespace Briefing

variable (wikiId : WikiId)

/-! ## The law -/

/-- The text of the file; an absent one has none. -/
def State.text (s : State) : Str := s.file.getD []

/-- The rows that came between two states. -/
def newRows (s t : State) : List BriefingRow :=
  t.items.rows.rows.filter fun r => r ∉ s.items.rows.rows

/-- What was in the file is in the file: the sections byte for byte, and the lines of the front
matter except those on the last update. -/
structure Kept (s t : State) : Prop where
  sections : fromLine isHeading s.text <+: fromLine isHeading t.text
  frontMatter : ((frontMatter s.text).filter fun l => !isLastUpdated l).Sublist
    (frontMatter t.text)

/-- File and table agree: every new row has its one heading, and there is no other new one. -/
structure Agrees (s t : State) : Prop extends Kept s t where
  headed : ∀ r ∈ newRows s t, (headings t.text).countP (headedBy r.id) = 1
  others : (headings t.text).filter (fun l => (newRows s t).all fun r => !headedBy r.id l) =
    headings s.text

/-- A step that writes no look-alike, and over no other note: an id is new to the file when its row
is inserted; a write finds the file that was read, with a front matter that can be kept, and brings
plain texts. -/
def Careful (s : State) : Event → Prop
  | .begin _ _ => True
  | .go n _ =>
    match s.actors n with
    | some (.inserting _) => ∀ l ∈ headings s.text, headedBy (s.items.seq + 1) l = false
    | some (.writing row existing) =>
      (s.file = none ∨ s.file = some existing) ∧ Steady existing ∧ row.Plain
    | _ => True

/-! ## Steps -/

variable {wikiId} {s t u : State} {n : ℕ}

lemma Kept.refl (s : State) : Kept s s := ⟨List.prefix_rfl, List.filter_sublist⟩

lemma Kept.trans (hst : Kept s t) (htu : Kept t u) : Kept s u where
  sections := hst.sections.trans htu.sections
  frontMatter := by
    have hfirst := hst.frontMatter.filter fun l => !isLastUpdated l
    rw [List.filter_filter] at hfirst
    simp only [Bool.and_self] at hfirst
    exact hfirst.trans htu.frontMatter

/-- Without a file there is nothing to keep. -/
lemma Kept.of_none (h : s.file = none) : Kept s t where
  sections := by
    rw [State.text, h]
    exact List.nil_prefix
  frontMatter := by
    rw [State.text, h]
    exact List.nil_sublist _

/-- The row a call has inserted and not written yet. -/
def Actor.row? : Actor → Option BriefingRow
  | .reading row | .writing row _ => some row
  | _ => none

/-- The row whose section call `n` owes. -/
def State.owes (s : State) (n : ℕ) : Option BriefingRow := (s.actors n).bind Actor.row?

lemma step_go_iff {clock : Clock} : step wikiId s (.go n clock) = some t ↔
    ∃ a, s.actors n = some a ∧ t = { (act wikiId clock s a).1 with
      actors := Function.update s.actors n (act wikiId clock s a).2 } := by
  simp only [step, Option.map_eq_some_iff, eq_comm (a := t)]

lemma owes_update (s : State) (n : ℕ) (a : Option Actor) (items : Items) (file : Option Str) :
    State.owes { items := items, file := file, actors := Function.update s.actors n a } =
      Function.update s.owes n (a.bind Actor.row?) := by
  funext m
  by_cases hm : m = n
  · subst hm
    simp only [State.owes, Function.update_self]
  · simp only [State.owes, Function.update_of_ne hm]

/-- A careful write keeps what is in the file. -/
lemma Kept.step {e : Event} (h : step wikiId s e = some t) (hcareful : Careful s e) : Kept s t := by
  have hsame : t.file = s.file → Kept s t := by
    intro hfile
    have htext : t.text = s.text := by rw [State.text, hfile, State.text]
    exact ⟨by rw [htext], by rw [htext]; exact List.filter_sublist⟩
  cases e with
  | begin n req =>
    refine hsame ?_
    simp only [Briefing.step] at h
    split at h
    · cases h
    · split at h <;> obtain rfl := Option.some.inj h <;> rfl
  | go n clock =>
    obtain ⟨a, ha, rfl⟩ := step_go_iff.mp h
    cases a with
    | counting note =>
      refine hsame ?_
      simp only [act]
      split <;> rfl
    | inserting note => exact hsame rfl
    | reading row => exact hsame rfl
    | writing row existing =>
      simp only [Careful, ha] at hcareful
      obtain ⟨hread, hsteady, hplain⟩ := hcareful
      rcases hread with hfile | hfile
      · exact Kept.of_none hfile
      · have htext : s.text = existing := by rw [State.text, hfile, Option.getD_some]
        refine ⟨?_, ?_⟩
        · rw [htext]
          exact fromLine_appended hplain hsteady
        · rw [htext]
          exact frontMatter_appended hplain hsteady

/-! ## The invariant -/

/-- Every new row has its heading or somebody owes it, and nobody owes what another does. -/
structure Inv (s₀ s : State) : Prop where
  rows : ∀ r ∈ s₀.items.rows, r ∈ s.items.rows
  owed : ∀ n r, s.owes n = some r →
    r ∈ newRows s₀ s ∧ (headings s.text).countP (headedBy r.id) = 0
  apart : ∀ n m r, s.owes n = some r → s.owes m = some r → n = m
  blank : ∀ n r existing, s.actors n = some (.writing r existing) → s.file = none →
    headings existing = []
  headed : ∀ r ∈ newRows s₀ s, (∀ n, s.owes n ≠ some r) →
    (headings s.text).countP (headedBy r.id) = 1
  others : (headings s.text).filter (fun l => (newRows s₀ s).all fun r => !headedBy r.id l) =
    headings s₀.text

variable {s₀ : State}

lemma newRows_self (s : State) : newRows s s = [] := by
  simp [newRows]

lemma inv_rest (h : ∀ n, s.actors n = none) : Inv s s where
  rows := fun _ hr => hr
  owed n r hn := by simp [State.owes, h n] at hn
  apart n m r hn := by simp [State.owes, h n] at hn
  blank n r existing hn := by simp [h n] at hn
  headed r hr := by simp [newRows_self] at hr
  others := by simp [newRows_self]

/-- A step of one call that touches neither the table nor the file. -/
lemma Inv.quiet (h : Inv s₀ s) (hitems : t.items = s.items) (hfile : t.file = s.file)
    (howes : t.owes = s.owes) (hblank : ∀ n r existing, t.actors n = some (.writing r existing) →
      s.file = none → headings existing = []) : Inv s₀ t := by
  have htext : t.text = s.text := by rw [State.text, hfile, State.text]
  have hnew : newRows s₀ t = newRows s₀ s := by rw [newRows, hitems, newRows]
  refine ⟨?_, ?_, ?_, ?_, ?_, ?_⟩
  · rw [hitems]
    exact h.rows
  · rw [howes, hnew, htext]
    exact h.owed
  · rw [howes]
    exact h.apart
  · rw [hfile]
    exact hblank
  · rw [hnew, howes, htext]
    exact h.headed
  · rw [hnew, htext]
    exact h.others

/-- A row is inserted. -/
lemma Inv.insert (h : Inv s₀ s) {note : Note} {now : Str} (ha : s.actors n = some (.inserting note))
    (hfree : ∀ l ∈ headings s.text, headedBy (s.items.seq + 1) l = false) :
    Inv s₀ { items := s.items.insert (note.row wikiId now) (note.id_row wikiId now)
             file := s.file
             actors := Function.update s.actors n
               (some (.reading (note.row wikiId now (s.items.seq + 1)))) } := by
  set row := note.row wikiId now (s.items.seq + 1)
  have hid : row.id = s.items.seq + 1 := rfl
  have hfresh : ∀ r ∈ s.items.rows, r.id ≠ row.id := by
    intro r hr heq
    have hle := s.items.le_seq r hr
    omega
  have hnone : s.owes n = none := by rw [State.owes, ha]; rfl
  have hnew : newRows s₀ { items := s.items.insert (note.row wikiId now) (note.id_row wikiId now)
                           file := s.file
                           actors := Function.update s.actors n (some (.reading row)) } =
      newRows s₀ s ++ [row] := by
    have hout : row ∉ s₀.items.rows.rows := fun hmem => hfresh row (h.rows row hmem) rfl
    simp only [newRows, Items.insert, List.filter_append]
    rw [List.filter_singleton, decide_eq_true hout, cond_true]
  have hzero : (headings s.text).countP (headedBy row.id) = 0 := by
    rw [List.countP_eq_zero, hid]
    intro l hl
    rw [hfree l hl]
    exact Bool.false_ne_true
  refine ⟨?_, ?_, ?_, ?_, ?_, ?_⟩
  · exact fun r hr => List.mem_append_left _ (h.rows r hr)
  · intro m r hm
    rw [owes_update] at hm
    by_cases hmn : m = n
    · subst hmn
      rw [Function.update_self] at hm
      obtain rfl : row = r := Option.some.inj hm
      exact ⟨by rw [hnew]; simp, hzero⟩
    · rw [Function.update_of_ne hmn] at hm
      obtain ⟨hr, hcount⟩ := h.owed m r hm
      exact ⟨by rw [hnew]; exact List.mem_append_left _ hr, hcount⟩
  · intro m k r hm hk
    rw [owes_update] at hm hk
    have hold : ∀ j, s.owes j ≠ some row := fun j hj =>
      hfresh row (List.mem_filter.mp (h.owed j row hj).1).1 rfl
    by_cases hmn : m = n <;> by_cases hkn : k = n
    · rw [hmn, hkn]
    · subst hmn
      rw [Function.update_self] at hm
      rw [Function.update_of_ne hkn] at hk
      obtain rfl : row = r := Option.some.inj hm
      exact absurd hk (hold k)
    · subst hkn
      rw [Function.update_self] at hk
      rw [Function.update_of_ne hmn] at hm
      obtain rfl : row = r := Option.some.inj hk
      exact absurd hm (hold m)
    · rw [Function.update_of_ne hmn] at hm
      rw [Function.update_of_ne hkn] at hk
      exact h.apart m k r hm hk
  · intro m r existing hm
    dsimp only at hm
    by_cases hmn : m = n
    · subst hmn
      rw [Function.update_self] at hm
      cases hm
    · rw [Function.update_of_ne hmn] at hm
      exact h.blank m r existing hm
  · intro r hr howes
    rw [hnew, List.mem_append, List.mem_singleton] at hr
    rw [owes_update] at howes
    rcases hr with hr | rfl
    · refine h.headed r hr fun m hm => ?_
      by_cases hmn : m = n
      · rw [hmn, hnone] at hm
        cases hm
      · exact howes m (by rw [Function.update_of_ne hmn]; exact hm)
    · exact absurd (by rw [Function.update_self]; rfl) (howes n)
  · rw [hnew, ← h.others]
    refine List.filter_congr fun l hl => ?_
    rw [List.all_append, List.all_cons, List.all_nil, Bool.and_true, hid, hfree l hl, Bool.not_false,
      Bool.and_true]

/-- A section is written. -/
lemma Inv.write (h : Inv s₀ s) {row : BriefingRow} {existing : Str}
    (ha : s.actors n = some (.writing row existing))
    (hread : s.file = none ∨ s.file = some existing) (hsteady : Steady existing)
    (hplain : row.Plain) :
    Inv s₀ { items := s.items
             file := some (appended existing row)
             actors := Function.update s.actors n none } := by
  have howes : s.owes n = some row := by rw [State.owes, ha]; rfl
  obtain ⟨hnew, hzero⟩ := h.owed n row howes
  have hrow : row ∈ s.items.rows := (List.mem_filter.mp hnew).1
  set line := (breakLines (headLine row)).head (breakLines_ne_nil (headLine row))
  have hline : ∀ id, headedBy id line = true ↔ id = row.id := headedBy_head_iff
  have hbefore : headings existing = headings s.text := by
    rcases hread with hfile | hfile
    · rw [h.blank n row existing ha hfile, State.text, hfile]
      rfl
    · rw [State.text, hfile, Option.getD_some]
  have hafter : headings (appended existing row) = headings s.text ++ [line] := by
    rw [headings_appended hplain hsteady, hbefore]
  have hstays : ∀ r ∈ s.items.rows, r ≠ row →
      (headings (appended existing row)).countP (headedBy r.id) =
        (headings s.text).countP (headedBy r.id) := by
    intro r hr hne
    have hother : headedBy r.id line = false := by
      rw [Bool.eq_false_iff, ne_eq, hline]
      exact fun hid => hne (Table.eq_of_key_eq hr hrow hid)
    rw [hafter, List.countP_append, List.countP_singleton, hother, if_neg Bool.false_ne_true,
      Nat.add_zero]
  have hothers : ∀ {m r}, Function.update s.owes n none m = some r →
      s.owes m = some r ∧ m ≠ n := by
    intro m r hm
    by_cases hmn : m = n
    · subst hmn
      rw [Function.update_self] at hm
      cases hm
    · rw [Function.update_of_ne hmn] at hm
      exact ⟨hm, hmn⟩
  refine ⟨h.rows, ?_, ?_, ?_, ?_, ?_⟩
  · intro m r hm
    rw [owes_update] at hm
    obtain ⟨hm, hmn⟩ := hothers hm
    obtain ⟨hr, hcount⟩ := h.owed m r hm
    refine ⟨hr, ?_⟩
    have hne : r ≠ row := by
      rintro rfl
      exact hmn (h.apart m n r hm howes)
    exact (hstays r (List.mem_filter.mp hr).1 hne).trans hcount
  · intro m k r hm hk
    rw [owes_update] at hm hk
    exact h.apart m k r (hothers hm).1 (hothers hk).1
  · intro m r text _ hnone
    cases hnone
  · intro r hr hnobody
    rw [owes_update] at hnobody
    by_cases hsame : r = row
    · subst hsame
      have hhit : headedBy r.id line = true := (hline r.id).mpr rfl
      change (headings (appended existing r)).countP (headedBy r.id) = 1
      rw [hafter, List.countP_append, List.countP_singleton, hhit, if_pos rfl, hzero]
    · have hr' : r ∈ newRows s₀ s := hr
      refine (hstays r (List.mem_filter.mp hr').1 hsame).trans (h.headed r hr' fun m hm => ?_)
      by_cases hmn : m = n
      · subst hmn
        rw [howes] at hm
        exact hsame (Option.some.inj hm).symm
      · exact hnobody m (by rw [Function.update_of_ne hmn]; exact hm)
  · change (headings (appended existing row)).filter
      (fun l => (newRows s₀ s).all fun r => !headedBy r.id l) = _
    have hout : ((newRows s₀ s).all fun r => !headedBy r.id line) = false := by
      rw [List.all_eq_false]
      exact ⟨row, hnew, by simp [(hline row.id).mpr rfl]⟩
    rw [hafter, List.filter_append, h.others, List.filter_singleton, hout,
      cond_false, List.append_nil]

/-- One step. -/
lemma Inv.step {e : Event} (h : Inv s₀ s) (ht : step wikiId s e = some t) (hcareful : Careful s e) :
    Inv s₀ t := by
  cases e with
  | begin n req =>
    simp only [Briefing.step] at ht
    split at ht
    · cases ht
    next hnone =>
    split at ht
    · obtain rfl := Option.some.inj ht
      exact h
    next note hnote =>
    obtain rfl := Option.some.inj ht
    refine h.quiet rfl rfl ?_ ?_
    · rw [owes_update, Function.update_eq_self_iff, State.owes, hnone]
      rfl
    · intro m r existing hm
      dsimp only at hm
      by_cases hmn : m = n
      · subst hmn
        rw [Function.update_self] at hm
        cases hm
      · rw [Function.update_of_ne hmn] at hm
        exact h.blank m r existing hm
  | go n clock =>
    obtain ⟨a, ha, rfl⟩ := step_go_iff.mp ht
    have howes : s.owes n = a.row? := by rw [State.owes, ha]; rfl
    cases a with
    | counting note =>
      have hact : ∃ b : Option Actor, act wikiId clock s (.counting note) = (s, b) ∧
          (b = none ∨ b = some (.inserting note)) := by
        simp only [act]
        split
        · exact ⟨_, rfl, Or.inl rfl⟩
        · exact ⟨_, rfl, Or.inr rfl⟩
      obtain ⟨b, hb, hkind⟩ := hact
      rw [hb]
      refine h.quiet rfl rfl ?_ ?_
      · rw [owes_update, Function.update_eq_self_iff, howes]
        rcases hkind with rfl | rfl <;> rfl
      · intro m r existing hm
        dsimp only at hm
        by_cases hmn : m = n
        · subst hmn
          rw [Function.update_self] at hm
          rcases hkind with rfl | rfl <;> cases hm
        · rw [Function.update_of_ne hmn] at hm
          exact h.blank m r existing hm
    | inserting note =>
      simp only [Careful, ha] at hcareful
      exact h.insert ha hcareful
    | reading row =>
      refine h.quiet rfl rfl ?_ ?_
      · rw [act, owes_update, Function.update_eq_self_iff, howes]
        rfl
      · intro m r existing hm hnone
        simp only [act, hnone, Option.getD_none] at hm
        by_cases hmn : m = n
        · subst hmn
          rw [Function.update_self] at hm
          obtain ⟨-, rfl⟩ := Actor.writing.inj (Option.some.inj hm)
          exact headings_initialBriefingDoc wikiId
            (Rfc3339.Civil.notMem_render (by decide) (by decide) clock.now)
        · rw [Function.update_of_ne hmn] at hm
          exact h.blank m r existing hm hnone
    | writing row existing =>
      simp only [Careful, ha] at hcareful
      obtain ⟨hread, hsteady, hplain⟩ := hcareful
      exact h.write ha hread hsteady hplain

/-- In a run of careful steps, file and table agree when all calls have returned, and whatever was
in the file at any time is in it still. -/
theorem agrees_of_careful (wikiId : WikiId) {trace : List (State × Event)}
    (hrun : Run (Briefing.step wikiId) s trace t) (hbegin : ∀ n, s.actors n = none)
    (hcareful : ∀ p ∈ trace, Careful p.1 p.2) (hrest : ∀ n, t.actors n = none) :
    Agrees s t ∧ ∀ p ∈ trace, Kept p.1 t := by
  obtain ⟨hkept, hstates⟩ := hrun.le_last_of Kept.refl Kept.trans Kept.step hcareful
  have hinv : Inv s t := (hrun.invariant (inv_rest hbegin) (fun hstep hinv hC => hinv.step hstep hC)
    hcareful).2
  refine ⟨⟨hkept, fun r hr => hinv.headed r hr fun n hn => ?_, hinv.others⟩, hstates⟩
  rw [State.owes, hrest n] at hn
  cases hn

/-! ## Two notes -/

instance (existing : Str) : Decidable (Steady existing) :=
  inferInstanceAs (Decidable (∀ l ∈ frontMatter existing, _))

instance (row : BriefingRow) : Decidable row.Plain :=
  decidable_of_iff
    ((∀ l ∈ breakLines row.body, isHeading l = false) ∧
      (∀ text ∈ row.topic :: row.sourceRef :: row.ts :: row.targetCite.toList,
        ∀ l ∈ (breakLines text).tail, isHeading l = false) ∧
      ∀ l ∈ (breakLines row.ts).tail, ¬ "---".toList <+: l)
    (by
      constructor
      · rintro ⟨hbody, htexts, hfence⟩
        exact ⟨hbody, htexts _ (by simp), htexts _ (by simp), htexts _ (by simp),
          fun cite hcite => htexts cite (by simp [hcite]), hfence⟩
      · rintro ⟨hbody, htopic, href, hts, hcite, hfence⟩
        refine ⟨hbody, fun text htext => ?_, hfence⟩
        simp only [List.mem_cons, Option.mem_toList] at htext
        rcases htext with rfl | rfl | rfl | htext
        · exact htopic
        · exact href
        · exact hts
        · exact hcite text htext)

/-- A check that a step is careful. -/
def checked (s : State) : Event → Bool
  | .begin _ _ => true
  | .go n _ =>
    match s.actors n with
    | some (.inserting _) => (headings s.text).all fun l => !headedBy (s.items.seq + 1) l
    | some (.writing row existing) =>
      decide ((s.file = none ∨ s.file = some existing) ∧ Steady existing ∧ row.Plain)
    | _ => true

lemma careful_of_checked {e : Event} (h : checked s e = true) : Careful s e := by
  cases e with
  | begin => trivial
  | go n clock =>
    simp only [checked] at h
    simp only [Careful]
    cases ha : s.actors n with
    | none => trivial
    | some a =>
      simp only [ha] at h
      cases a with
      | inserting note => simpa using h
      | writing row existing => exact of_decide_eq_true h
      | _ => trivial

/-- Who a step belongs to. -/
def Event.call : Event → ℕ
  | .begin n _ => n
  | .go n _ => n

/-- Calls that nobody made are at rest. -/
lemma actors_of_foldlM {events : List Event} (h : events.foldlM (Briefing.step wikiId) s = some t)
    {m : ℕ} (hm : ∀ e ∈ events, e.call ≠ m) : t.actors m = s.actors m := by
  refine Run.eq_of_foldlM (fun x => x.actors m) (fun e he x y hstep => ?_) h
  have hne : m ≠ e.call := (hm e he).symm
  cases e with
  | begin n req =>
    simp only [Briefing.step] at hstep
    split at hstep
    · cases hstep
    · split at hstep
      · obtain rfl := Option.some.inj hstep
        rfl
      · obtain rfl := Option.some.inj hstep
        exact Function.update_of_ne hne _ _
  | go n clock =>
    obtain ⟨a, -, rfl⟩ := step_go_iff.mp hstep
    exact Function.update_of_ne hne _ _

lemma seven_lt_hundred : 7 < 100 := by decide

lemma twelve_lt_hundred : 12 < 100 := by decide

/-- Noon. -/
def noon : Clock where
  now :=
    { year := 2026, month := 7, day := 1, hour := 12, minute := 0, second := 0, nanos := 0
      month_lt := seven_lt_hundred, day_lt := Rfc3339.one_lt_hundred
      hour_lt := twelve_lt_hundred
      minute_lt := Rfc3339.zero_lt_hundred, second_lt := Rfc3339.zero_lt_hundred
      nanos_lt := Rfc3339.zero_lt_nanos }
  hourAgo := "2026-07-01 11:00:00".toList

/-- A wiki about a house. -/
def house : WikiId := ⟨"house".toList, by decide⟩

/-- A note on the house. -/
def noteOn (topic : Str) : NotifyRequest where
  topic := topic
  body := "It leaks.".toList
  sourceKind := .user
  sourceRef := "user:alice".toList
  kind := none
  targetCite := none
  ts := none

/-- An empty inbox. -/
def emptyInbox : State where
  items := { rows := Table.empty BriefingRow.id, seq := 0, le_seq := by simp }
  file := none
  actors _ := none

/-- One note after the other. -/
def inTurn : List Event :=
  .begin 0 (noteOn "Roof".toList) :: List.replicate 4 (.go 0 noon) ++
    .begin 1 (noteOn "Tap".toList) :: List.replicate 4 (.go 1 noon)

/-- A run of two calls ends with both at rest. -/
lemma rest_of_foldlM {events : List Event} (hcalls : ∀ e ∈ events, e.call ≤ 1)
    (h : events.foldlM (Briefing.step wikiId) emptyInbox = some t)
    (hend : ((t.actors 0).isNone && (t.actors 1).isNone) = true) (n : ℕ) : t.actors n = none := by
  simp only [Bool.and_eq_true, Option.isNone_iff_eq_none] at hend
  by_cases hn : n ≤ 1
  · interval_cases n
    · exact hend.1
    · exact hend.2
  · refine actors_of_foldlM h fun e he heq => ?_
    have hle := hcalls e he
    omega

lemma inTurn_agrees : ∃ trace t, Run (Briefing.step house) emptyInbox trace t ∧
    (newRows emptyInbox t).length = 2 ∧ Agrees emptyInbox t := by
  have hend : (inTurn.foldlM (fun s e => if checked s e then Briefing.step house s e else none)
      emptyInbox).any (fun t => ((t.actors 0).isNone && (t.actors 1).isNone) &&
        decide ((newRows emptyInbox t).length = 2)) = true := by
    decide +kernel
  obtain ⟨t, ht, htest⟩ := (Option.any_eq_true _ _).mp hend
  rw [Bool.and_eq_true, decide_eq_true_eq] at htest
  obtain ⟨trace, hrun, hchecked⟩ := Run.of_foldlM_checked ht
  have hrest := rest_of_foldlM (by decide) (Run.foldlM_of_checked ht) htest.1
  exact ⟨trace, t, hrun, htest.2, (agrees_of_careful house hrun (fun _ => rfl)
    (fun p hp => careful_of_checked (hchecked p hp)) hrest).1⟩

/-- Two calls that read the inbox before either writes it. -/
def atOnce : List Event :=
  [.begin 0 (noteOn "Roof".toList), .begin 1 (noteOn "Tap".toList), .go 0 noon, .go 1 noon,
    .go 0 noon, .go 1 noon, .go 0 noon, .go 1 noon, .go 0 noon, .go 1 noon]

/-- The roof is in the table and not in the file. -/
theorem roof_lost : ∃ trace t, Run (Briefing.step house) emptyInbox trace t ∧
    (∀ n, t.actors n = none) ∧ ¬ Agrees emptyInbox t := by
  have hend : (atOnce.foldlM (Briefing.step house) emptyInbox).any (fun t =>
      ((t.actors 0).isNone && (t.actors 1).isNone) &&
        (newRows emptyInbox t).any fun r => (headings t.text).countP (headedBy r.id) == 0) =
          true := by
    decide +kernel
  obtain ⟨t, ht, htest⟩ := (Option.any_eq_true _ _).mp hend
  rw [Bool.and_eq_true, List.any_eq_true] at htest
  obtain ⟨hrest, r, hr, hlost⟩ := htest
  obtain ⟨trace, hrun⟩ := Run.of_foldlM ht
  refine ⟨trace, t, hrun, rest_of_foldlM (by decide) ht hrest, fun hagrees => ?_⟩
  have hone := hagrees.headed r hr
  rw [beq_iff_eq] at hlost
  omega

end Briefing

end Mwe
